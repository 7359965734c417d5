import Mathlib.Logic.Function.Basic
import SmartDesk.Lib.PyText
import SmartDesk.Lib.Transition

/-!
# The assistant service

`modules/assistant/service.py`: a `reply()` collects a turn item by item and commits it at
its end.  What the gateway and the tools do is not modelled: they return or raise anything,
a cancellation among it.

* `Turn`, `Phase` — the variables of a `reply()`, and the `await` at which it stands.
* `step` — one task goes on up to its next `await`; any waiter can get the lock.
-/

namespace SmartDesk.Assistant

open PyText

/-! ## Items and steps -/

/-- A `HistoryItem`: the keys that the service reads or writes, and the others. -/
structure HistoryItem (J : Type) where
  role : Option String := none
  content : Option PyStr := none
  type : Option String := none
  callId : Option String := none
  name : Option String := none
  arguments : Option String := none
  output : Option String := none
  others : Option J := none
  deriving DecidableEq

inductive AssistantNextAction where
  | waitForFollowup
  | returnToWakeWord
  deriving DecidableEq

inductive AssistantDecisionReason where
  | assistantRequestedInput
  | moreUserInformationRequired
  | userRequestedEnd
  | conversationComplete
  deriving DecidableEq

structure AssistantReply where
  spokenText : PyStr
  nextAction : AssistantNextAction
  decisionReason : AssistantDecisionReason
  deriving DecidableEq

structure AssistantToolCall where
  callId : String
  name : String
  argumentsJson : String
  deriving DecidableEq

structure OpenAiResponseStep (J : Type) where
  reply : Option AssistantReply
  outputItems : List (HistoryItem J)
  requestId : Option String := none
  inputTokens : Option ℕ := none
  outputTokens : Option ℕ := none
  toolCalls : List AssistantToolCall := []

structure AssistantDebugTurn where
  completedAt : ℕ
  userText : PyStr
  spokenText : PyStr
  nextAction : AssistantNextAction
  decisionReason : AssistantDecisionReason
  requestId : Option String
  inputTokens : Option ℕ
  outputTokens : Option ℕ
  outputItemTypes : List String
  requestIds : List String
  toolNames : List String
  toolCallCount : ℕ
  deriving DecidableEq

/-- What a `reply()` raises: its own errors, or what the gateway or a tool has raised. -/
inductive ReplyError (E : Type) where
  | emptyText
  | structuredReplyInvalid
  | toolCallLimitExceeded
  | cancelled
  | raised (e : E)
  deriving DecidableEq

/-- `normalize_text`; NFKC is a parameter. -/
def normalizeText (nfkc : PyStr → PyStr) (value : PyStr) : PyStr :=
  joinWords (splitWords [] (nfkc value))

/-! ## The service -/

/-- The variables of a turn. -/
structure Turn (J : Type) where
  resetSession : Bool
  oldHistory : List (HistoryItem J)
  userText : PyStr
  pending : List (HistoryItem J)
  turnOutputItems : List (HistoryItem J) := []
  toolNames : List String := []
  requestIds : List String := []
  inputUsages : List ℕ := []
  outputUsages : List ℕ := []

/-- A request of `_create_step`: `create_response_step`, or `create_response` of a gateway
that has no other. -/
inductive Request (J : Type) where
  | step (inputItems : List (HistoryItem J))
  | oneShot (history : List (HistoryItem J)) (userText : PyStr)

/-- Where a `reply()` stands: not begun, at the lock, at the gateway, at a tool with the
calls that remain, or at its end. -/
inductive Phase (J E : Type) where
  | ready
  | locking
  | asking (turn : Turn J) (request : Request J)
  | executing (turn : Turn J) (call : AssistantToolCall) (remaining : List AssistantToolCall)
  | ended (result : Except (ReplyError E) AssistantReply)

structure Task (J E : Type) where
  userText : PyStr
  phase : Phase J E

structure Session (J : Type) where
  history : List (HistoryItem J)
  completedTurns : ℕ

/-- The arguments of the constructor, and what `model_dump_json` makes of an output. -/
structure Config (O : Type) where
  sessionMaxTurns : ℕ
  maxToolCallsPerTurn : ℕ
  hasResponseStep : Bool
  nfkc : PyStr → PyStr
  dumpJson : O → String

structure AssistantService (J E : Type) where
  session : Session J
  debugTurns : List AssistantDebugTurn
  owner : Option ℕ
  task : ℕ → Option (Task J E)
  count : ℕ

def AssistantService.init (J E : Type) : AssistantService J E where
  session := ⟨[], 0⟩
  debugTurns := []
  owner := none
  task := fun _ => none
  count := 0

variable {J E O : Type}

/-- `{"role": "user", "content": …}`. -/
def userItem (text : PyStr) : HistoryItem J := { role := some "user", content := some text }

/-- `{"type": "function_call_output", …}`. -/
def outputItem (config : Config O) (call : AssistantToolCall) (output : O) : HistoryItem J :=
  { type := some "function_call_output", callId := some call.callId,
    output := some (config.dumpJson output) }

namespace AssistantService

variable (config : Config O) (s : AssistantService J E)

def put (t : ℕ) (k : Task J E) : AssistantService J E :=
  { s with task := Function.update s.task t (some k) }

/-- The task ends, and with it the `async with self._lock`. -/
def fail (t : ℕ) (k : Task J E) (e : ReplyError E) : AssistantService J E :=
  { s.put t { k with phase := .ended (.error e) } with owner := none }

/-- The request of `_create_step`. -/
def request (turn : Turn J) : Request J :=
  if config.hasResponseStep then .step turn.pending else .oneShot turn.oldHistory turn.userText

/-- `_create_step`, up to the `await` of the gateway. -/
def ask (t : ℕ) (k : Task J E) (turn : Turn J) : AssistantService J E :=
  s.put t { k with phase := .asking turn (request config turn) }

/-- The begin of a turn. -/
def beginTurn (normalized : PyStr) : Turn J :=
  let resetSession := decide (config.sessionMaxTurns ≤ s.session.completedTurns)
  let oldHistory := if resetSession then [] else s.session.history
  { resetSession, oldHistory, userText := normalized,
    pending := oldHistory ++ [userItem normalized] }

/-- The loop over the calls of a step. -/
def nextCall (t : ℕ) (k : Task J E) (turn : Turn J) : List AssistantToolCall → AssistantService J E
  | [] => s.ask config t k turn
  | call :: remaining =>
      if config.maxToolCallsPerTurn ≤ turn.toolNames.length then
        s.fail t k .toolCallLimitExceeded
      else s.put t { k with phase := .executing turn call remaining }

/-- `sum(usages) if usages else None`. -/
def total (usages : List ℕ) : Option ℕ :=
  if usages.isEmpty then none else some (usages.foldl (· + ·) 0)

/-- The summary of a turn. -/
def debugTurn (turn : Turn J) (reply : AssistantReply) (now : ℕ) : AssistantDebugTurn where
  completedAt := now
  userText := turn.userText
  spokenText := reply.spokenText
  nextAction := reply.nextAction
  decisionReason := reply.decisionReason
  requestId := turn.requestIds.getLast?
  inputTokens := total turn.inputUsages
  outputTokens := total turn.outputUsages
  outputItemTypes := turn.turnOutputItems.map fun item => item.type.getD "unknown"
  requestIds := turn.requestIds
  toolNames := turn.toolNames
  toolCallCount := turn.toolNames.length

/-- The end of a turn that returns. -/
def commit (t : ℕ) (k : Task J E) (turn : Turn J) (reply : AssistantReply) (now : ℕ) :
    AssistantService J E :=
  { s.put t { k with phase := .ended (.ok reply) } with
    owner := none
    session :=
      { history := turn.pending
        completedTurns := if turn.resetSession then 1 else s.session.completedTurns + 1 }
    debugTurns := (if turn.resetSession then [] else s.debugTurns) ++ [debugTurn turn reply now] }

/-- What a step of the gateway adds to a turn. -/
def received (turn : Turn J) (step : OpenAiResponseStep J) : Turn J :=
  { turn with
    pending := turn.pending ++ step.outputItems
    turnOutputItems := turn.turnOutputItems ++ step.outputItems
    requestIds := turn.requestIds ++ step.requestId.toList
    inputUsages := turn.inputUsages ++ step.inputTokens.toList
    outputUsages := turn.outputUsages ++ step.outputTokens.toList }

/-- What the output of a tool adds to a turn. -/
def executed (turn : Turn J) (call : AssistantToolCall) (output : O) : Turn J :=
  { turn with
    pending := turn.pending ++ [outputItem config call output]
    turnOutputItems := turn.turnOutputItems ++ [outputItem config call output]
    toolNames := turn.toolNames ++ [call.name] }

/-- The gateway has returned. -/
def afterStep (t : ℕ) (k : Task J E) (turn : Turn J) (step : OpenAiResponseStep J) (now : ℕ) :
    AssistantService J E :=
  match step.toolCalls, step.reply with
  | [], none => s.fail t k .structuredReplyInvalid
  | [], some reply => s.commit t k (received turn step) reply now
  | call :: remaining, _ => s.nextCall config t k (received turn step) (call :: remaining)

end AssistantService

/-! ## Steps -/

/-- What can happen: a `reply()` is called, runs on, or is cancelled at the lock or before;
the gateway or a tool returns or raises. -/
inductive Label (J E O : Type) where
  | call (userText : PyStr)
  | run (t : ℕ)
  | cancel (t : ℕ)
  | answered (t : ℕ) (result : Except (ReplyError E) (OpenAiResponseStep J)) (now : ℕ)
  | executed (t : ℕ) (result : Except (ReplyError E) O)

/-- One step of the service. -/
def step (config : Config O) (s : AssistantService J E) :
    Label J E O → Option (AssistantService J E)
  | .call userText =>
      some { s.put s.count ⟨userText, .ready⟩ with count := s.count + 1 }
  | .run t =>
      match s.task t with
      | some ⟨userText, .ready⟩ =>
          if normalizeText config.nfkc userText = [] then
            some (s.put t ⟨userText, .ended (.error .emptyText)⟩)
          else some (s.put t ⟨userText, .locking⟩)
      | some ⟨userText, .locking⟩ =>
          if s.owner = none then
            some (AssistantService.ask config { s with owner := some t } t ⟨userText, .locking⟩
              (s.beginTurn config (normalizeText config.nfkc userText)))
          else none
      | _ => none
  | .cancel t =>
      match s.task t with
      | some ⟨userText, .ready⟩ => some (s.put t ⟨userText, .ended (.error .cancelled)⟩)
      | some ⟨userText, .locking⟩ => some (s.put t ⟨userText, .ended (.error .cancelled)⟩)
      | _ => none
  | .answered t result now =>
      match s.task t with
      | some ⟨userText, .asking turn request⟩ =>
          match result with
          | .error e => some (s.fail t ⟨userText, .asking turn request⟩ e)
          | .ok step => some (s.afterStep config t ⟨userText, .asking turn request⟩ turn step now)
      | _ => none
  | .executed t result =>
      match s.task t with
      | some ⟨userText, .executing turn call remaining⟩ =>
          match result with
          | .error e => some (s.fail t ⟨userText, .executing turn call remaining⟩ e)
          | .ok output =>
              some (s.nextCall config t ⟨userText, .executing turn call remaining⟩
                (AssistantService.executed config turn call output) remaining)
      | _ => none

end SmartDesk.Assistant
