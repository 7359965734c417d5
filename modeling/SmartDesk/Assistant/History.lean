import SmartDesk.Assistant.Replay

/-!
# The history of a session

Every `reply()` is a transaction: it works on items of its own, and changes the session at
its last step or not at all.

* `Observed`, `observe` — the service, and what each turn has sent, received and produced.
* `TurnOk`, `TaskOk` — the invariant of a turn that has the lock, and of any `reply()`.
* `Committed` — what a turn that returns makes of the session.
* `reply_transactional` — **the history is changed by whole turns, and every request can be
  replayed**.
-/

namespace SmartDesk.Assistant

open PyText

variable {J E O : Type}

/-! ## Observed runs -/

/-- What was seen of one `reply()`: its requests, the calls of `execute`, the items in the
order in which they came, and the items of each response. -/
structure Record (J : Type) where
  requests : List (Request J) := []
  executions : ℕ := 0
  produced : List (HistoryItem J) := []
  responses : List (List (HistoryItem J)) := []

structure Observed (J E : Type) where
  service : AssistantService J E
  record : ℕ → Record J

def Observed.init (J E : Type) : Observed J E := ⟨.init J E, fun _ => {}⟩

/-- The task that a label is about. -/
def Label.actor : Label J E O → Option ℕ
  | .call _ => none
  | .run t => some t
  | .cancel t => some t
  | .answered t _ _ => some t
  | .executed t _ => some t

/-- A request that has just been made. -/
def Phase.asked : Phase J E → List (Request J)
  | .asking _ request => [request]
  | _ => []

/-- A call of `execute` that has just been made. -/
def Phase.begun : Phase J E → ℕ
  | .executing _ _ _ => 1
  | _ => 0

/-- The items that the gateway or the tool adds. -/
def arrived (config : Config O) (phase : Phase J E) : Label J E O → List (HistoryItem J)
  | .answered _ (.ok step) _ => step.outputItems
  | .executed _ (.ok output) =>
      match phase with
      | .executing _ call _ => [outputItem config call output]
      | _ => []
  | _ => []

def Label.responses : Label J E O → List (List (HistoryItem J))
  | .answered _ (.ok step) _ => [step.outputItems]
  | _ => []

/-- What is seen of the task of the label, from the phases before and after. -/
def Record.next (config : Config O) (l : Label J E O) (before after : Phase J E) (r : Record J) :
    Record J where
  requests := r.requests ++ after.asked
  executions := r.executions + after.begun
  produced := r.produced ++ arrived config before l
  responses := r.responses ++ l.responses

/-- One step, and what is seen of it. -/
def observe (config : Config O) (o : Observed J E) (l : Label J E O) : Option (Observed J E) :=
  (step config o.service l).map fun service =>
    { service
      record := fun t =>
        match o.service.task t, service.task t with
        | some k, some k' =>
            if l.actor = some t then (o.record t).next config l k.phase k'.phase else o.record t
        | _, _ => o.record t }

/-! ## The guarantee -/

/-- The task has returned this reply. -/
def Returned (o : Observed J E) (t : ℕ) (reply : AssistantReply) : Prop :=
  ∃ text, o.service.task t = some ⟨text, .ended (.ok reply)⟩

/-- The session is full, and the next turn begins a new one. -/
def Full (config : Config O) (o : Observed J E) : Prop :=
  config.sessionMaxTurns ≤ o.service.session.completedTurns

instance (config : Config O) (o : Observed J E) : Decidable (Full config o) :=
  inferInstanceAs (Decidable (_ ≤ _))

/-- A turn of `t` is added to the session, or begins a new one. -/
structure Committed (config : Config O) (o o' : Observed J E) (t : ℕ) (text : PyStr)
    (reply : AssistantReply) : Prop where
  history : o'.service.session.history = (if Full config o then [] else o.service.session.history) ++
    userItem (normalizeText config.nfkc text) :: (o'.record t).produced
  completedTurns : o'.service.session.completedTurns =
    (if Full config o then 0 else o.service.session.completedTurns) + 1
  debugTurns : ∃ turn, o'.service.debugTurns =
      (if Full config o then [] else o.service.debugTurns) ++ [turn] ∧
    turn.userText = normalizeText config.nfkc text ∧ turn.spokenText = reply.spokenText ∧
    turn.nextAction = reply.nextAction ∧ turn.decisionReason = reply.decisionReason ∧
    turn.toolCallCount = (o'.record t).executions

/-- Nothing of the session changes, and no `reply()` returns. -/
structure Untouched (o o' : Observed J E) : Prop where
  session : o'.service.session = o.service.session
  debugTurns : o'.service.debugTurns = o.service.debugTurns
  returned : ∀ t reply, Returned o' t reply → Returned o t reply

/-- One `reply()` returns, and commits its turn. -/
def Commits (config : Config O) (o o' : Observed J E) : Prop :=
  ∃ t text reply, ¬ Returned o t reply ∧ o'.service.task t = some ⟨text, .ended (.ok reply)⟩ ∧
    Committed config o o' t text reply ∧
    ∀ u reply', u ≠ t → Returned o' u reply' → Returned o u reply'

structure Transactional (config : Config O) (o : Observed J E) : Prop where
  steps : ∀ (l : Label J E O) o', observe config o l = some o' →
    Untouched o o' ∨ Commits config o o'
  requests : ∀ t j request, (o.record t).requests[j + 1]? = some request →
    Paired ((o.record t).responses.take (j + 1)) request
  executions : ∀ t, (o.record t).executions ≤ config.maxToolCallsPerTurn
  completedTurns : o.service.session.completedTurns ≤ config.sessionMaxTurns

/-- The steps of the gateway have the calls that their items say, and no ID is used twice in
a turn; a gateway that has only `create_response` calls no tools. -/
def providerSteps (config : Config O) (o : Observed J E) : Label J E O → Prop
  | .answered t (.ok step) _ =>
      BuiltFromItems step ∧
        (callIds ((o.record t).responses.flatten ++ step.outputItems)).Nodup ∧
        (config.hasResponseStep = false → step.toolCalls = [])
  | _ => True

/-! ## The invariant -/

/-- A turn as it is kept in its variables. -/
structure TurnOk (config : Config O) (s : AssistantService J E) (text : PyStr) (turn : Turn J)
    (r : Record J) : Prop where
  resetSession : turn.resetSession = decide (config.sessionMaxTurns ≤ s.session.completedTurns)
  oldHistory : turn.oldHistory = if turn.resetSession then [] else s.session.history
  userText : turn.userText = normalizeText config.nfkc text
  pending : turn.pending = turn.oldHistory ++ userItem turn.userText :: turn.turnOutputItems
  produced : turn.turnOutputItems = r.produced

/-- The responses so far, and their outputs. -/
def Complete (r : Record J) : Prop :=
  ∃ outputs, List.Forall₂ Answers r.responses outputs ∧ r.produced = turnItems r.responses outputs

/-- The last response waits for the outputs of these calls. -/
def Waits (r : Record J) (calls : List AssistantToolCall) : Prop :=
  ∃ responses outputs items done, r.responses = responses ++ [items] ∧
    List.Forall₂ Answers responses outputs ∧
    r.produced = turnItems responses outputs ++ (items ++ done) ∧
    (done.map (·.callId) ++ calls.map fun call => some call.callId) =
      (items.filter HistoryItem.isFunctionCall).map (·.callId) ∧
    ∀ item ∈ done, item.type = some "function_call_output"

/-- The turn that a task has open. -/
def Phase.turn? : Phase J E → Option (Turn J)
  | .asking turn _ => some turn
  | .executing turn _ _ => some turn
  | _ => none

/-- Where a `reply()` stands. -/
structure TaskOk (config : Config O) (s : AssistantService J E) (t : ℕ) (k : Task J E)
    (r : Record J) : Prop where
  requests : ∀ j request, r.requests[j + 1]? = some request →
    Paired (r.responses.take (j + 1)) request
  executions : r.executions ≤ config.maxToolCallsPerTurn
  ids : CallsHaveIds r.responses.flatten
  distinct : (callIds r.responses.flatten).Nodup
  fresh : k.phase = .ready ∨ k.phase = .locking → r = {}
  turn : ∀ turn, k.phase.turn? = some turn → s.owner = some t ∧ TurnOk config s k.userText turn r
  asking : ∀ turn request, k.phase = .asking turn request →
    r.requests.length = r.responses.length + 1 ∧ r.executions = turn.toolNames.length ∧ Complete r
  executing : ∀ turn call remaining, k.phase = .executing turn call remaining →
    config.hasResponseStep = true ∧ r.requests.length = r.responses.length ∧
      r.executions = turn.toolNames.length + 1 ∧ Waits r (call :: remaining)

structure Inv (config : Config O) (o : Observed J E) : Prop where
  absent : ∀ t, o.service.count ≤ t → o.service.task t = none
  fresh : ∀ t, o.service.task t = none → o.record t = {}
  tasks : ∀ t k, o.service.task t = some k → TaskOk config o.service t k (o.record t)
  turns : o.service.session.completedTurns ≤ config.sessionMaxTurns

theorem inv_init (config : Config O) : Inv config (Observed.init J E) where
  absent := fun _ _ => rfl
  fresh := fun _ _ => rfl
  tasks := fun _ _ h => nomatch h
  turns := Nat.zero_le _

/-! ## What a step does -/

/-- Every step but a call moves one task. -/
inductive Went (config : Config O) (s : AssistantService J E) :
    Label J E O → ℕ → Task J E → Phase J E → AssistantService J E → Prop where
  /-- A `reply()` that has no turn goes to the lock or ends. -/
  | early {l : Label J E O} {t : ℕ} {k : Task J E} {phase : Phase J E} (hactor : l.actor = some t)
      (hresponses : l.responses = []) (hbefore : k.phase = .ready ∨ k.phase = .locking)
      (hphase : phase = .locking ∨ ∃ e, phase = .ended (.error e)) :
      Went config s l t k phase (s.put t { k with phase := phase })
  | began {t : ℕ} {k : Task J E} (hbefore : k.phase = .locking) (hfree : s.owner = none) :
      Went config s (.run t) t k
        (.asking (s.beginTurn config (normalizeText config.nfkc k.userText))
          (AssistantService.request config
            (s.beginTurn config (normalizeText config.nfkc k.userText))))
        (AssistantService.ask config { s with owner := some t } t k
          (s.beginTurn config (normalizeText config.nfkc k.userText)))
  | failed {l : Label J E O} {t : ℕ} {k : Task J E} (e : ReplyError E) (turn : Turn J)
      (hactor : l.actor = some t) (hbefore : k.phase.turn? = some turn) :
      Went config s l t k (.ended (.error e)) (s.fail t k e)
  | committed {t : ℕ} {k : Task J E} {turn : Turn J} {request : Request J}
      {step : OpenAiResponseStep J} {reply : AssistantReply} {now : ℕ}
      (hbefore : k.phase = .asking turn request) (hcalls : step.toolCalls = []) :
      Went config s (.answered t (.ok step) now) t k (.ended (.ok reply))
        (s.commit t k (AssistantService.received turn step) reply now)
  | firstCall {t : ℕ} {k : Task J E} {turn : Turn J} {request : Request J}
      {step : OpenAiResponseStep J} {call : AssistantToolCall} {remaining : List AssistantToolCall}
      {now : ℕ} (hbefore : k.phase = .asking turn request)
      (hcalls : step.toolCalls = call :: remaining)
      (hlimit : turn.toolNames.length < config.maxToolCallsPerTurn) :
      Went config s (.answered t (.ok step) now) t k
        (.executing (AssistantService.received turn step) call remaining)
        (s.put t { k with
          phase := .executing (AssistantService.received turn step) call remaining })
  | nextCall {t : ℕ} {k : Task J E} {turn : Turn J} {call next : AssistantToolCall}
      {remaining : List AssistantToolCall} {output : O}
      (hbefore : k.phase = .executing turn call (next :: remaining))
      (hlimit : turn.toolNames.length + 1 < config.maxToolCallsPerTurn) :
      Went config s (.executed t (.ok output)) t k
        (.executing (AssistantService.executed config turn call output) next remaining)
        (s.put t { k with
          phase := .executing (AssistantService.executed config turn call output) next remaining })
  | asked {t : ℕ} {k : Task J E} {turn : Turn J} {call : AssistantToolCall} {output : O}
      (hbefore : k.phase = .executing turn call []) :
      Went config s (.executed t (.ok output)) t k
        (.asking (AssistantService.executed config turn call output)
          (AssistantService.request config (AssistantService.executed config turn call output)))
        (s.ask config t k (AssistantService.executed config turn call output))

theorem went_answered (config : Config O) (s : AssistantService J E) (t : ℕ) {k : Task J E}
    {turn : Turn J} {request : Request J} (step : OpenAiResponseStep J) (now : ℕ)
    (hbefore : k.phase = .asking turn request) :
    ∃ phase, Went config s (.answered t (.ok step) now) t k phase
      (s.afterStep config t k turn step now) := by
  have hturn : k.phase.turn? = some turn := by rw [hbefore]; rfl
  unfold AssistantService.afterStep
  split
  · exact ⟨_, .failed .structuredReplyInvalid turn rfl hturn⟩
  · next hcalls _ => exact ⟨_, .committed hbefore hcalls⟩
  · next call remaining hcalls =>
    unfold AssistantService.nextCall
    split_ifs with hlimit
    · exact ⟨_, .failed .toolCallLimitExceeded turn rfl hturn⟩
    · exact ⟨_, .firstCall hbefore hcalls (Nat.lt_of_not_le hlimit)⟩

theorem went_executed (config : Config O) (s : AssistantService J E) (t : ℕ) {k : Task J E}
    {turn : Turn J} {call : AssistantToolCall} {remaining : List AssistantToolCall} (output : O)
    (hbefore : k.phase = .executing turn call remaining) :
    ∃ phase, Went config s (.executed t (.ok output)) t k phase
      (s.nextCall config t k (AssistantService.executed config turn call output) remaining) := by
  have hturn : k.phase.turn? = some turn := by rw [hbefore]; rfl
  cases remaining with
  | nil => exact ⟨_, .asked hbefore⟩
  | cons next remaining =>
    unfold AssistantService.nextCall
    split_ifs with hlimit
    · exact ⟨_, .failed .toolCallLimitExceeded turn rfl hturn⟩
    · refine ⟨_, .nextCall hbefore ?_⟩
      simpa [AssistantService.executed] using Nat.lt_of_not_le hlimit

/-- **Everything that a step does**: a call, or one task that goes on. -/
theorem went_of_step {config : Config O} {s s' : AssistantService J E} {l : Label J E O}
    (h : step config s l = some s') :
    (∃ text, l = .call text ∧ s' = { s.put s.count ⟨text, .ready⟩ with count := s.count + 1 }) ∨
      ∃ t k phase, s.task t = some k ∧ l.actor = some t ∧ Went config s l t k phase s' := by
  cases l with
  | call text =>
    cases h
    exact .inl ⟨text, rfl, rfl⟩
  | run t =>
    right
    simp only [step] at h
    split at h
    · next text htask =>
      split_ifs at h
      · cases h
        exact ⟨t, _, _, htask, rfl, .early rfl rfl (.inl rfl) (.inr ⟨_, rfl⟩)⟩
      · cases h
        exact ⟨t, _, _, htask, rfl, .early rfl rfl (.inl rfl) (.inl rfl)⟩
    · next text htask =>
      split_ifs at h with hfree
      cases h
      exact ⟨t, _, _, htask, rfl, .began rfl hfree⟩
    · cases h
  | cancel t =>
    right
    simp only [step] at h
    split at h
    · next text htask =>
      cases h
      exact ⟨t, _, _, htask, rfl, .early rfl rfl (.inl rfl) (.inr ⟨_, rfl⟩)⟩
    · next text htask =>
      cases h
      exact ⟨t, _, _, htask, rfl, .early rfl rfl (.inr rfl) (.inr ⟨_, rfl⟩)⟩
    · cases h
  | answered t result now =>
    right
    simp only [step] at h
    split at h
    · next text turn request htask =>
      cases result with
      | error e =>
        cases h
        exact ⟨t, _, _, htask, rfl, .failed e turn rfl rfl⟩
      | ok step =>
        cases h
        obtain ⟨phase, hwent⟩ := went_answered config s t step now
          (k := ⟨text, .asking turn request⟩) rfl
        exact ⟨t, _, phase, htask, rfl, hwent⟩
    · cases h
  | executed t result =>
    right
    simp only [step] at h
    split at h
    · next text turn call remaining htask =>
      cases result with
      | error e =>
        cases h
        exact ⟨t, _, _, htask, rfl, .failed e turn rfl rfl⟩
      | ok output =>
        cases h
        obtain ⟨phase, hwent⟩ := went_executed config s t output
          (k := ⟨text, .executing turn call remaining⟩) rfl
        exact ⟨t, _, phase, htask, rfl, hwent⟩
    · cases h

/-- A task that goes on is the only one that changes. -/
theorem Went.task {config : Config O} {s s' : AssistantService J E} {l : Label J E O} {t : ℕ}
    {k : Task J E} {phase : Phase J E} (h : Went config s l t k phase s') :
    s'.count = s.count ∧
      ∀ u, s'.task u = if u = t then some { k with phase := phase } else s.task u := by
  cases h <;> exact ⟨rfl, fun u => Function.update_apply _ _ _ u⟩

section Steps

variable {config : Config O} {o o' : Observed J E} {l : Label J E O} {t : ℕ} {k : Task J E}
  {phase : Phase J E}

/-- What is seen of a step that moves one task. -/
theorem record_of_observe (h : observe config o l = some o') (htask : o.service.task t = some k)
    (hactor : l.actor = some t) (hwent : Went config o.service l t k phase o'.service) (u : ℕ) :
    o'.record u =
      if u = t then (o.record t).next config l k.phase phase else o.record u := by
  obtain ⟨service, _, rfl⟩ := Option.map_eq_some_iff.mp h
  have htask' : ∀ v, service.task v = if v = t then some { k with phase := phase }
      else o.service.task v := hwent.task.2
  by_cases hu : u = t
  · subst hu
    have hafter : service.task u = some { k with phase := phase } := by rw [htask', if_pos rfl]
    simp only [htask, hafter, hactor, if_true]
  · have hother : l.actor ≠ some u := by
      rw [hactor]
      exact fun h => hu (Option.some.inj h).symm
    simp only [if_neg hu, if_neg hother]
    split <;> rfl

/-- A `reply()` keeps its place while another one goes on. -/
theorem TaskOk.keep {s s' : AssistantService J E} {r : Record J} (h : TaskOk config s t k r)
    (hkeep : s.owner = some t → s'.owner = some t ∧ s'.session = s.session) :
    TaskOk config s' t k r := by
  refine { h with turn := fun turn hturn => ?_ }
  obtain ⟨howner, hok⟩ := h.turn turn hturn
  obtain ⟨howner', hsession⟩ := hkeep howner
  refine ⟨howner', ?_, ?_, hok.userText, hok.pending, hok.produced⟩
  · rw [hsession]
    exact hok.resetSession
  · rw [hsession]
    exact hok.oldHistory

/-- The turn that is open has the lock. -/
theorem Inv.owner_of_turn (hi : Inv config o) (htask : o.service.task t = some k) {turn : Turn J}
    (hturn : k.phase.turn? = some turn) : o.service.owner = some t :=
  ((hi.tasks t k htask).turn turn hturn).1

/-- The lock and the session of another turn stay. -/
theorem Went.frame (hi : Inv config o) (htask : o.service.task t = some k)
    {s' : AssistantService J E} (h : Went config o.service l t k phase s') {u : ℕ} (hu : u ≠ t)
    (howner : o.service.owner = some u) :
    s'.owner = some u ∧ s'.session = o.service.session := by
  have hturn : ∀ turn, k.phase.turn? = some turn → False := by
    intro turn hturn
    rw [hi.owner_of_turn htask hturn] at howner
    exact hu (Option.some.inj howner).symm
  cases h with
  | early => exact ⟨howner, rfl⟩
  | began _ hfree =>
    rw [hfree] at howner
    cases howner
  | failed e turn _ hbefore => exact absurd hbefore (hturn turn)
  | committed hbefore _ => exact absurd (by rw [hbefore]; rfl) (hturn _)
  | firstCall hbefore _ _ => exact absurd (by rw [hbefore]; rfl) (hturn _)
  | nextCall hbefore _ => exact absurd (by rw [hbefore]; rfl) (hturn _)
  | asked hbefore => exact absurd (by rw [hbefore]; rfl) (hturn _)

/-- One task that goes on, in terms of that task. -/
theorem Inv.of_went (hi : Inv config o) (h : observe config o l = some o')
    (htask : o.service.task t = some k) (hactor : l.actor = some t)
    (hwent : Went config o.service l t k phase o'.service)
    (hok : TaskOk config o'.service t { k with phase := phase }
      ((o.record t).next config l k.phase phase))
    (hturns : o'.service.session.completedTurns ≤ config.sessionMaxTurns) : Inv config o' := by
  have hrecord := record_of_observe h htask hactor hwent
  obtain ⟨hcount, htasks⟩ := hwent.task
  refine ⟨fun u hu => ?_, fun u hu => ?_, fun u k' hk' => ?_, hturns⟩
  · rw [hcount] at hu
    have hne : u ≠ t := by
      rintro rfl
      rw [hi.absent u hu] at htask
      cases htask
    rw [htasks, if_neg hne]
    exact hi.absent u hu
  · rw [htasks] at hu
    split_ifs at hu with hne
    rw [hrecord, if_neg hne]
    exact hi.fresh u hu
  · rw [htasks] at hk'
    rw [hrecord]
    split_ifs at hk' with hne
    · cases hk'
      rw [if_pos hne, hne]
      exact hok
    · rw [if_neg hne]
      exact (hi.tasks u k' hk').keep fun howner => hwent.frame hi htask hne howner

/-! ## The turns -/

/-- A request is paired with the responses before it, whatever comes later. -/
theorem TaskOk.requests_append {s : AssistantService J E} {r : Record J}
    (h : TaskOk config s t k r) (hlength : r.requests.length ≤ r.responses.length + 1)
    (more : List (List (HistoryItem J))) (j : ℕ) (request : Request J)
    (hrequest : r.requests[j + 1]? = some request) :
    Paired ((r.responses ++ more).take (j + 1)) request := by
  have hlt := (List.getElem?_eq_some_iff.mp hrequest).1
  rw [List.take_append_of_le_length (by omega)]
  exact h.requests j request hrequest

/-- The IDs of the responses, with those of one more. -/
theorem ids_next {s : AssistantService J E} (h : TaskOk config s t k (o.record t))
    (hactor : l.actor = some t) (hl : providerSteps config o l) :
    CallsHaveIds ((o.record t).responses ++ l.responses).flatten ∧
      (callIds ((o.record t).responses ++ l.responses).flatten).Nodup := by
  have hsame : l.responses = [] → CallsHaveIds ((o.record t).responses ++ l.responses).flatten ∧
      (callIds ((o.record t).responses ++ l.responses).flatten).Nodup := by
    intro hresponses
    rw [hresponses, List.append_nil]
    exact ⟨h.ids, h.distinct⟩
  cases l with
  | answered u result now =>
    cases result with
    | error e => exact hsame rfl
    | ok step =>
      obtain rfl : u = t := Option.some.inj hactor
      obtain ⟨hbuilt, hdistinct, _⟩ := hl
      have hflatten : ((o.record u).responses ++ [step.outputItems]).flatten =
          (o.record u).responses.flatten ++ step.outputItems := by
        rw [List.flatten_append]
        simp
      rw [Label.responses, hflatten]
      refine ⟨fun item hitem => ?_, hdistinct⟩
      rcases List.mem_append.mp hitem with hitem | hitem
      · exact h.ids item hitem
      · exact hbuilt.callsHaveIds item hitem
  | _ => exact hsame rfl

/-- An open turn has made a request for each of its responses, and perhaps one more. -/
theorem TaskOk.length_le {s : AssistantService J E} {r : Record J} (h : TaskOk config s t k r)
    {turn : Turn J} (hturn : k.phase.turn? = some turn) :
    r.requests.length ≤ r.responses.length + 1 := by
  cases hphase : k.phase with
  | asking turn request => exact Nat.le_of_eq (h.asking turn request hphase).1
  | executing turn call remaining =>
    exact Nat.le_succ_of_le (Nat.le_of_eq (h.executing turn call remaining hphase).2.1)
  | _ =>
    rw [hphase] at hturn
    cases hturn

/-- A `reply()` at its end. -/
theorem taskOk_ended {s' : AssistantService J E} (hok : TaskOk config s' t k (o.record t))
    {turn : Turn J} (hturn : k.phase.turn? = some turn) (hactor : l.actor = some t)
    (hl : providerSteps config o l) (result : Except (ReplyError E) AssistantReply)
    (s : AssistantService J E) :
    TaskOk config s t { k with phase := .ended result }
      ((o.record t).next config l k.phase (.ended result)) := by
  obtain ⟨hids, hdistinct⟩ := ids_next hok hactor hl
  refine ⟨fun j request hrequest => ?_, hok.executions, hids, hdistinct, fun h => ?_,
    fun _ h => (nomatch h), fun _ _ h => (nomatch h), fun _ _ _ h => (nomatch h)⟩
  · simp only [Record.next, Phase.asked, List.append_nil] at hrequest
    exact hok.requests_append (hok.length_le hturn) _ j request hrequest
  · rcases h with h | h <;> cases h

theorem turnOk_received {s : AssistantService J E} {text : PyStr} {turn : Turn J} {r r' : Record J}
    (h : TurnOk config s text turn r) (step : OpenAiResponseStep J)
    (hproduced : r'.produced = r.produced ++ step.outputItems) :
    TurnOk config s text (AssistantService.received turn step) r' where
  resetSession := h.resetSession
  oldHistory := h.oldHistory
  userText := h.userText
  pending := by
    simp only [AssistantService.received, h.pending, List.append_assoc, List.cons_append]
  produced := by rw [hproduced, ← h.produced]; rfl

theorem turnOk_executed {s : AssistantService J E} {text : PyStr} {turn : Turn J} {r r' : Record J}
    (h : TurnOk config s text turn r) (call : AssistantToolCall) (output : O)
    (hproduced : r'.produced = r.produced ++ [outputItem config call output]) :
    TurnOk config s text (AssistantService.executed config turn call output) r' where
  resetSession := h.resetSession
  oldHistory := h.oldHistory
  userText := h.userText
  pending := by
    simp only [AssistantService.executed, h.pending, List.append_assoc, List.cons_append]
  produced := by rw [hproduced, ← h.produced]; rfl

/-- A turn keeps its place when only the tasks change. -/
theorem TurnOk.put {s : AssistantService J E} {text : PyStr} {turn : Turn J} {r : Record J}
    (h : TurnOk config s text turn r) (u : ℕ) (k : Task J E) :
    TurnOk config (s.put u k) text turn r :=
  ⟨h.resetSession, h.oldHistory, h.userText, h.pending, h.produced⟩

/-- One more output. -/
theorem Waits.next {r : Record J} {call : AssistantToolCall} {remaining : List AssistantToolCall}
    (h : Waits r (call :: remaining)) (output : O) {r' : Record J}
    (hresponses : r'.responses = r.responses)
    (hproduced : r'.produced = r.produced ++ [outputItem config call output]) :
    Waits r' remaining := by
  obtain ⟨responses, outputs, items, done, hlast, hanswers, hitems, hids, htypes⟩ := h
  refine ⟨responses, outputs, items, done ++ [outputItem config call output],
    hresponses.trans hlast, hanswers, ?_, ?_, fun item hitem => ?_⟩
  · rw [hproduced, hitems]
    simp
  · rw [← hids]
    simp [outputItem]
  · rcases List.mem_append.mp hitem with hitem | hitem
    · exact htypes item hitem
    · rw [List.mem_singleton.mp hitem]
      rfl

/-- The outputs are complete. -/
theorem Waits.complete {r : Record J} (h : Waits r []) : Complete r := by
  obtain ⟨responses, outputs, items, done, hlast, hanswers, hitems, hids, htypes⟩ := h
  refine ⟨outputs ++ [done], ?_, ?_⟩
  · rw [hlast]
    refine List.rel_append hanswers (.cons ⟨?_, htypes⟩ .nil)
    simpa using hids
  · rw [hitems, hlast, turnItems, turnItems, List.zipWith_append hanswers.length_eq,
      List.flatten_append]
    simp

theorem taskOk_early {s s' : AssistantService J E} (hok : TaskOk config s t k (o.record t))
    (hresponses : l.responses = []) (hbefore : k.phase = .ready ∨ k.phase = .locking)
    (hphase : phase = .locking ∨ ∃ e, phase = .ended (.error e)) :
    TaskOk config s' t { k with phase := phase } ((o.record t).next config l k.phase phase) := by
  have harrived : arrived config k.phase l = [] := by
    cases l with
    | answered u result now =>
      cases result with
      | error e => rfl
      | ok step => cases hresponses
    | executed u result =>
      cases result with
      | error e => rfl
      | ok output => rcases hbefore with h | h <;> rw [h] <;> rfl
    | _ => rfl
  have hnext : (o.record t).next config l k.phase phase = {} := by
    rw [hok.fresh hbefore, Record.next, harrived, hresponses]
    rcases hphase with rfl | ⟨e, rfl⟩ <;> rfl
  rw [hnext]
  refine ⟨fun _ _ h => (nomatch h), Nat.zero_le _, fun _ h => (nomatch h), List.nodup_nil,
    fun _ => rfl, fun turn h => ?_, fun turn request h => ?_, fun turn call remaining h => ?_⟩
  all_goals rcases hphase with rfl | ⟨e, rfl⟩ <;> cases h

theorem taskOk_began {s : AssistantService J E} (hok : TaskOk config s t k (o.record t))
    (hbefore : k.phase = .locking) (request : Request J) :
    TaskOk config { s with owner := some t } t
      { k with
        phase := .asking (s.beginTurn config (normalizeText config.nfkc k.userText)) request }
      ((o.record t).next config (.run t : Label J E O) k.phase
        (.asking (s.beginTurn config (normalizeText config.nfkc k.userText)) request)) := by
  rw [hok.fresh (.inr hbefore)]
  refine ⟨fun _ _ h => (nomatch h), Nat.zero_le _, fun _ h => (nomatch h), List.nodup_nil,
    fun h => ?_, fun turn h => ?_, fun turn request h => ?_, fun _ _ _ h => (nomatch h)⟩
  · rcases h with h | h <;> cases h
  · cases h
    exact ⟨rfl, rfl, rfl, rfl, rfl, rfl⟩
  · cases h
    exact ⟨rfl, rfl, [], .nil, rfl⟩

theorem taskOk_firstCall {turn : Turn J} {request : Request J} {step : OpenAiResponseStep J}
    {call : AssistantToolCall} {remaining : List AssistantToolCall} {now : ℕ}
    (hok : TaskOk config o.service t k (o.record t)) (hbefore : k.phase = .asking turn request)
    (hcalls : step.toolCalls = call :: remaining)
    (hlimit : turn.toolNames.length < config.maxToolCallsPerTurn)
    (hl : providerSteps config o (.answered t (.ok step) now)) :
    TaskOk config o.service t
      { k with phase := .executing (AssistantService.received turn step) call remaining }
      ((o.record t).next config (.answered t (.ok step) now) k.phase
        (.executing (AssistantService.received turn step) call remaining)) := by
  have hturn : k.phase.turn? = some turn := by rw [hbefore]; rfl
  obtain ⟨hids, hdistinct⟩ := ids_next hok rfl hl
  obtain ⟨howner, hturnOk⟩ := hok.turn turn hturn
  obtain ⟨hlength, hexecutions, outputs, hanswers, hproduced⟩ := hok.asking turn request hbefore
  refine ⟨fun j request hrequest => ?_, ?_, hids, hdistinct, fun h => ?_, fun turn' h => ?_,
    fun _ _ h => (nomatch h), fun turn' call' remaining' h => ?_⟩
  · simp only [Record.next, Phase.asked, List.append_nil] at hrequest
    exact hok.requests_append (hok.length_le hturn) _ j request hrequest
  · rw [Record.next, Phase.begun, hexecutions]
    exact hlimit
  · rcases h with h | h <;> cases h
  · cases h
    exact ⟨howner, turnOk_received hturnOk step rfl⟩
  · cases h
    refine ⟨?_, ?_, ?_, (o.record t).responses, outputs, step.outputItems, [], rfl, hanswers, ?_, ?_,
      fun _ h => (nomatch h)⟩
    · rw [← Bool.not_eq_false]
      intro hmissing
      rw [hl.2.2 hmissing] at hcalls
      cases hcalls
    · simp only [Record.next, Phase.asked, Label.responses, List.append_nil, List.length_append,
        List.length_singleton]
      exact hlength
    · rw [Record.next, Phase.begun, hexecutions]
      rfl
    · simp only [Record.next, arrived, List.append_nil, hproduced]
    · rw [hl.1.ids, hcalls]
      rfl

theorem taskOk_nextCall {turn : Turn J} {call next : AssistantToolCall}
    {remaining : List AssistantToolCall} {output : O}
    (hok : TaskOk config o.service t k (o.record t))
    (hbefore : k.phase = .executing turn call (next :: remaining))
    (hlimit : turn.toolNames.length + 1 < config.maxToolCallsPerTurn) :
    TaskOk config o.service t
      { k with phase := .executing (AssistantService.executed config turn call output) next remaining }
      ((o.record t).next config (.executed t (.ok output)) k.phase
        (.executing (AssistantService.executed config turn call output) next remaining)) := by
  have hturn : k.phase.turn? = some turn := by rw [hbefore]; rfl
  obtain ⟨hids, hdistinct⟩ := ids_next (l := .executed t (.ok output)) hok rfl trivial
  obtain ⟨howner, hturnOk⟩ := hok.turn turn hturn
  obtain ⟨hstep, hlength, hexecutions, hwaits⟩ := hok.executing turn call _ hbefore
  have hproduced : ((o.record t).next config (.executed t (.ok output)) k.phase
      (.executing (AssistantService.executed config turn call output) next remaining)).produced =
      (o.record t).produced ++ [outputItem config call output] := by
    rw [hbefore]
    rfl
  have hresponses : ((o.record t).next config (.executed t (.ok output)) k.phase
      (.executing (AssistantService.executed config turn call output) next remaining)).responses =
      (o.record t).responses := List.append_nil _
  refine ⟨fun j request hrequest => ?_, ?_, hids, hdistinct, fun h => ?_, fun turn' h => ?_,
    fun _ _ h => (nomatch h), fun turn' call' remaining' h => ?_⟩
  · simp only [Record.next, Phase.asked, List.append_nil] at hrequest
    exact hok.requests_append (hok.length_le hturn) _ j request hrequest
  · rw [Record.next, Phase.begun, hexecutions]
    exact hlimit
  · rcases h with h | h <;> cases h
  · cases h
    exact ⟨howner, turnOk_executed hturnOk call output hproduced⟩
  · cases h
    refine ⟨hstep, ?_, ?_, hwaits.next output hresponses hproduced⟩
    · rw [hresponses, ← hlength]
      simp only [Record.next, Phase.asked, List.append_nil]
    · rw [Record.next, Phase.begun, hexecutions]
      simp [AssistantService.executed]

theorem taskOk_asked {turn : Turn J} {call : AssistantToolCall} {output : O}
    (hok : TaskOk config o.service t k (o.record t)) (hbefore : k.phase = .executing turn call []) :
    TaskOk config o.service t
      { k with
        phase := .asking (AssistantService.executed config turn call output)
          (AssistantService.request config (AssistantService.executed config turn call output)) }
      ((o.record t).next config (.executed t (.ok output)) k.phase
        (.asking (AssistantService.executed config turn call output)
          (AssistantService.request config
            (AssistantService.executed config turn call output)))) := by
  have hturn : k.phase.turn? = some turn := by rw [hbefore]; rfl
  obtain ⟨hids, hdistinct⟩ := ids_next (l := .executed t (.ok output)) hok rfl trivial
  obtain ⟨howner, hturnOk⟩ := hok.turn turn hturn
  obtain ⟨hstep, hlength, hexecutions, hwaits⟩ := hok.executing turn call _ hbefore
  generalize hturn' : AssistantService.executed config turn call output = turn'
  generalize hrecord : (o.record t).next config (.executed t (.ok output)) k.phase
    (.asking turn' (AssistantService.request config turn')) = r'
  have hproduced : r'.produced = (o.record t).produced ++ [outputItem config call output] := by
    rw [← hrecord, hbefore]
    rfl
  have hresponses : r'.responses = (o.record t).responses := by
    rw [← hrecord]
    exact List.append_nil _
  have hrequests : r'.requests =
      (o.record t).requests ++ [AssistantService.request config turn'] := by
    rw [← hrecord]
    rfl
  have hturnOk' : TurnOk config o.service k.userText turn' r' := by
    rw [← hturn']
    exact turnOk_executed hturnOk call output hproduced
  have hcomplete : Complete r' := (hwaits.next output hresponses hproduced).complete
  have hpaired : Paired r'.responses (AssistantService.request config turn') := by
    obtain ⟨outputs, hanswers, hitems⟩ := hcomplete
    rw [AssistantService.request, if_pos hstep, hturnOk'.pending, hturnOk'.produced, hitems]
    exact paired_of_answers hanswers (by rw [hresponses]; exact hok.ids)
      (by rw [hresponses]; exact hok.distinct)
  refine ⟨fun j request hrequest => ?_, ?_, ?_, ?_, fun h => ?_, fun turn'' h => ?_,
    fun turn'' request h => ?_, fun _ _ _ h => (nomatch h)⟩
  · rw [hrequests, List.getElem?_append] at hrequest
    split_ifs at hrequest with hlt
    · rw [hresponses]
      exact hok.requests j request hrequest
    · -- The new request comes after all the responses.
      rw [List.getElem?_singleton] at hrequest
      split_ifs at hrequest with hj
      cases hrequest
      have hall : r'.responses.take (j + 1) = r'.responses := by
        rw [List.take_of_length_le]
        rw [hresponses]
        omega
      rw [hall]
      exact hpaired
  · rw [← hrecord]
    exact hok.executions
  · rw [hresponses]
    exact hok.ids
  · rw [hresponses]
    exact hok.distinct
  · rcases h with h | h <;> cases h
  · cases h
    exact ⟨howner, hturnOk'⟩
  · cases h
    refine ⟨?_, ?_, hcomplete⟩
    · rw [hrequests, hresponses, List.length_append, hlength]
      rfl
    · rw [← hrecord, ← hturn']
      simp [Record.next, Phase.begun, hexecutions, AssistantService.executed]

/-! ## The session -/

/-- **Every step keeps the invariant.** -/
theorem Inv.moved (hmax : 1 ≤ config.sessionMaxTurns) (hi : Inv config o)
    (hl : providerSteps config o l) (h : observe config o l = some o') : Inv config o' := by
  obtain ⟨service, hstep, ho'⟩ := Option.map_eq_some_iff.mp h
  have hservice : o'.service = service := by rw [← ho']
  rcases went_of_step hstep with ⟨text, rfl, rfl⟩ | ⟨t, k, phase, htask, hactor, hwent⟩
  · have hrecord : o'.record = o.record := by
      rw [← ho']
      funext u
      simp only [Label.actor]
      split <;> rfl
    have htasks : ∀ u, o'.service.task u =
        if u = o.service.count then some ⟨text, .ready⟩ else o.service.task u := by
      intro u
      rw [hservice]
      exact Function.update_apply _ _ _ u
    refine ⟨fun u hu => ?_, fun u hu => ?_, fun u k hk => ?_, by rw [hservice]; exact hi.turns⟩
    · rw [hservice] at hu
      have hlt : o.service.count < u := hu
      rw [htasks, if_neg (Nat.ne_of_gt hlt)]
      exact hi.absent u (Nat.le_of_lt hlt)
    · rw [htasks] at hu
      split_ifs at hu
      rw [hrecord]
      exact hi.fresh u hu
    · rw [htasks] at hk
      rw [hrecord]
      split_ifs at hk with hu
      · cases hk
        rw [hu, hi.fresh _ (hi.absent _ (Nat.le_refl _))]
        exact ⟨fun _ _ h => (nomatch h), Nat.zero_le _, fun _ h => (nomatch h), List.nodup_nil,
          fun _ => rfl, fun _ h => (nomatch h), fun _ _ h => (nomatch h), fun _ _ _ h => (nomatch h)⟩
      · refine (hi.tasks u k hk).keep fun howner => ?_
        rw [hservice]
        exact ⟨howner, rfl⟩
  · have hok := hi.tasks t k htask
    rw [← hservice] at hwent
    refine hi.of_went h htask hactor hwent ?_ ?_
    · generalize o'.service = s' at hwent
      cases hwent with
      | early _ hresponses hbefore hphase => exact taskOk_early hok hresponses hbefore hphase
      | began hbefore _ => exact (taskOk_began hok hbefore _).keep fun howner => ⟨howner, rfl⟩
      | failed e turn _ hbefore => exact taskOk_ended hok hbefore hactor hl _ _
      | committed hbefore _ =>
        exact taskOk_ended hok (by rw [hbefore]; rfl) hactor hl _ _
      | firstCall hbefore hcalls hlimit =>
        exact (taskOk_firstCall hok hbefore hcalls hlimit hl).keep fun howner => ⟨howner, rfl⟩
      | nextCall hbefore hlimit =>
        exact (taskOk_nextCall hok hbefore hlimit).keep fun howner => ⟨howner, rfl⟩
      | asked hbefore => exact (taskOk_asked hok hbefore).keep fun howner => ⟨howner, rfl⟩
    · generalize o'.service = s' at hwent
      cases hwent with
      | @committed _ _ turn request step reply now hbefore _ =>
        have hreset := (hok.turn turn (by rw [hbefore]; rfl)).2.resetSession
        show (if turn.resetSession then 1 else o.service.session.completedTurns + 1) ≤ _
        by_cases hfull : turn.resetSession = true
        · rw [if_pos hfull]
          exact hmax
        · rw [if_neg hfull]
          rw [hreset, decide_eq_true_eq] at hfull
          omega
      | _ => exact hi.turns

/-- A turn that returns is committed. -/
theorem commits_of_committed {turn : Turn J} {request : Request J} {step : OpenAiResponseStep J}
    {reply : AssistantReply} {now : ℕ} (hi : Inv config o)
    (h : observe config o (.answered t (.ok step) now) = some o')
    (htask : o.service.task t = some k) (hbefore : k.phase = .asking turn request)
    (hwent : Went config o.service (.answered t (.ok step) now) t k (.ended (.ok reply)) o'.service)
    (hservice : o'.service =
      o.service.commit t k (AssistantService.received turn step) reply now) :
    Commits config o o' := by
  have hok := hi.tasks t k htask
  obtain ⟨_, hturn⟩ := hok.turn turn (by rw [hbefore]; rfl)
  obtain ⟨_, hexecutions, _⟩ := hok.asking turn request hbefore
  have htasks := hwent.task.2
  have hrecord := record_of_observe h htask rfl hwent t
  rw [if_pos rfl] at hrecord
  have hfull : turn.resetSession = decide (Full config o) := hturn.resetSession
  refine ⟨t, k.userText, reply, ?_, ?_, ⟨?_, ?_, ?_⟩, ?_⟩
  · rintro ⟨text, hreturned⟩
    rw [Option.some.inj (htask.symm.trans hreturned)] at hbefore
    cases hbefore
  · rw [htasks, if_pos rfl]
  · have hpending : TurnOk config o.service k.userText (AssistantService.received turn step)
        (o'.record t) := turnOk_received hturn step (by rw [hrecord]; rfl)
    rw [hservice, AssistantService.commit, hpending.pending, hpending.produced, hpending.userText,
      hpending.oldHistory]
    simp [AssistantService.received, hfull]
  · rw [hservice]
    simp only [AssistantService.commit, AssistantService.received, hfull]
    split_ifs <;> simp_all
  · refine ⟨AssistantService.debugTurn (AssistantService.received turn step) reply now, ?_, ?_, rfl,
      rfl, rfl, ?_⟩
    · rw [hservice]
      simp [AssistantService.commit, AssistantService.received, hfull]
    · exact hturn.userText
    · rw [hrecord, Record.next, hexecutions]
      rfl
  · rintro u reply' hu ⟨text, hreturned⟩
    rw [htasks, if_neg hu] at hreturned
    exact ⟨text, hreturned⟩

/-- **A step commits a turn that returns, or leaves the session alone.** -/
theorem untouched_or_commits (hi : Inv config o) (h : observe config o l = some o') :
    Untouched o o' ∨ Commits config o o' := by
  obtain ⟨service, hstep, ho'⟩ := Option.map_eq_some_iff.mp h
  have hservice : o'.service = service := by rw [← ho']
  rcases went_of_step hstep with ⟨text, rfl, rfl⟩ | ⟨t, k, phase, htask, hactor, hwent⟩
  · refine .inl ⟨by rw [hservice]; rfl, by rw [hservice]; rfl, ?_⟩
    rintro u reply ⟨text', hreturned⟩
    rw [hservice] at hreturned
    have hother := Function.update_apply o.service.task o.service.count (some ⟨text, .ready⟩) u
    rw [show Function.update o.service.task o.service.count (some ⟨text, .ready⟩) u = _
      from hreturned] at hother
    split_ifs at hother
    · cases hother
    · exact ⟨text', hother.symm⟩
  · rw [← hservice] at hwent
    have hreturned : (∀ reply, phase ≠ .ended (.ok reply)) →
        ∀ u reply, Returned o' u reply → Returned o u reply := by
      rintro hphase u reply ⟨text, hu⟩
      rw [hwent.task.2] at hu
      split_ifs at hu
      · cases hu
        exact absurd rfl (hphase reply)
      · exact ⟨text, hu⟩
    generalize hs' : o'.service = s' at hwent
    cases hwent with
    | early _ _ _ hphase =>
      refine .inl ⟨by rw [hs']; rfl, by rw [hs']; rfl, hreturned fun reply h => ?_⟩
      rcases hphase with rfl | ⟨e, rfl⟩ <;> cases h
    | began => exact .inl ⟨by rw [hs']; rfl, by rw [hs']; rfl, hreturned fun _ h => (nomatch h)⟩
    | failed => exact .inl ⟨by rw [hs']; rfl, by rw [hs']; rfl, hreturned fun _ h => (nomatch h)⟩
    | firstCall => exact .inl ⟨by rw [hs']; rfl, by rw [hs']; rfl, hreturned fun _ h => (nomatch h)⟩
    | nextCall => exact .inl ⟨by rw [hs']; rfl, by rw [hs']; rfl, hreturned fun _ h => (nomatch h)⟩
    | asked => exact .inl ⟨by rw [hs']; rfl, by rw [hs']; rfl, hreturned fun _ h => (nomatch h)⟩
    | committed hbefore hcalls =>
      refine .inr (commits_of_committed hi h htask hbefore ?_ hs')
      rw [hs']
      exact .committed hbefore hcalls

end Steps

/-! ## The result -/

/-- A run of the service in which the gateway builds its steps from their items. -/
structure AssistantRun (config : Config O) (ls : List (Label J E O)) (o : Observed J E) : Prop where
  meets : Transition.Meets (observe config) (providerSteps config) (Observed.init J E) ls
  reaches : Transition.exec (observe config) (Observed.init J E) ls = some o

theorem AssistantRun.inv {config : Config O} (hmax : 1 ≤ config.sessionMaxTurns)
    {ls : List (Label J E O)} {o : Observed J E} (h : AssistantRun config ls o) : Inv config o :=
  Transition.invariant_of_meets (fun _ _ _ hi hl hstep => hi.moved hmax hl hstep)
    (inv_init config) h.meets h.reaches

/-- **The history is changed by whole turns, and every request can be replayed.** -/
theorem reply_transactional {config : Config O} (hmax : 1 ≤ config.sessionMaxTurns)
    {ls : List (Label J E O)} {o : Observed J E} (h : AssistantRun config ls o) :
    Transactional (O := O) config o := by
  have hi := h.inv hmax
  have hrecord : ∀ t, o.record t = {} ∨ ∃ k, o.service.task t = some k := by
    intro t
    cases htask : o.service.task t with
    | none => exact .inl (hi.fresh t htask)
    | some k => exact .inr ⟨k, rfl⟩
  refine ⟨fun l o' => untouched_or_commits hi, fun t j request hrequest => ?_, fun t => ?_, hi.turns⟩
  · rcases hrecord t with hempty | ⟨k, htask⟩
    · rw [hempty] at hrequest
      cases hrequest
    · exact (hi.tasks t k htask).requests j request hrequest
  · rcases hrecord t with hempty | ⟨k, htask⟩
    · rw [hempty]
      exact Nat.zero_le _
    · exact (hi.tasks t k htask).executions

/-! ## A run -/

instance (step : OpenAiResponseStep J) : Decidable (BuiltFromItems step) :=
  inferInstanceAs (Decidable (_ = _))

instance decidableProviderSteps (config : Config O) (o : Observed J E) :
    (l : Label J E O) → Decidable (providerSteps config o l)
  | .answered _ (.ok _) _ => inferInstanceAs (Decidable (_ ∧ _ ∧ (_ → _)))
  | .answered _ (.error _) _ => isTrue trivial
  | .call _ => isTrue trivial
  | .run _ => isTrue trivial
  | .cancel _ => isTrue trivial
  | .executed _ _ => isTrue trivial

def oneTurnConfig : Config Unit where
  sessionMaxTurns := 1
  maxToolCallsPerTurn := 3
  hasResponseStep := true
  nfkc := id
  dumpJson := fun _ => "{}"

def doneReply : AssistantReply :=
  ⟨decode ['o', 'k'], .returnToWakeWord, .conversationComplete⟩

/-- A call of `turn_on_wled`. -/
def wledItem : HistoryItem Unit where
  type := some "function_call"
  callId := some "c1"
  name := some "turn_on_wled"
  arguments := some "{}"

/-- A turn with one call of a tool, and a second one that is cancelled at the gateway. -/
def toolRun : List (Label Unit Empty Unit) :=
  [.call (decode ['a']), .run 0, .run 0,
    .answered 0 (.ok ⟨none, [wledItem], none, none, none, [⟨"c1", "turn_on_wled", "{}"⟩]⟩) 0,
    .executed 0 (.ok ()),
    .answered 0 (.ok ⟨some doneReply, [{ type := some "message" }], none, none, none, []⟩) 1,
    .call (decode ['b']), .run 1, .run 1, .answered 1 (.error .cancelled) 2]

/-- The first turn is in the history, with its output; the second one is not. -/
theorem reply_transactional_tool : ∃ o : Observed Unit Empty,
    AssistantRun oneTurnConfig toolRun o ∧ o.service.session.history.length = 4 ∧
      (o.record 0).requests.length = 2 ∧ Transactional (O := Unit) oneTurnConfig o := by
  have hreaches : ∃ o : Observed Unit Empty,
      Transition.exec (observe oneTurnConfig) (Observed.init Unit Empty) toolRun = some o ∧
        o.service.session.history.length = 4 ∧ (o.record 0).requests.length = 2 :=
    ⟨_, rfl, rfl, rfl⟩
  obtain ⟨o, ho, hhistory, hrequests⟩ := hreaches
  have hrun : AssistantRun oneTurnConfig toolRun o := ⟨by decide, ho⟩
  exact ⟨o, hrun, hhistory, hrequests, reply_transactional (Nat.le_refl 1) hrun⟩

end SmartDesk.Assistant
