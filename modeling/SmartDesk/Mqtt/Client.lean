import SmartDesk.Lib.PyText
import SmartDesk.Lib.Script

/-!
# The MQTT client

`MqttClient` of `modules/mqtt/client.py`.  The task of `_run` goes statement by statement; `start`,
`stop` and `register_handler` are what happens around it on the same event loop.  What `aiomqtt` and
the handlers do is not modelled: they return or raise anything.

* `MqttVars` — the fields of the client, and what has become of its task and of its connection.
* `MqttProg.run`, `MqttProg.subscribeAll`, `MqttProg.messages` — `_run`, cut at its loops.
* `MqttVars.publish` — the connection that a publish is handed to, or the error that is raised.
* `mqttClient` — the programs, and what happens around them.
-/

namespace SmartDesk.Mqtt

open PyText Script

/-! ## Data -/

/-- `aiomqtt.MqttError`, `CancelledError` and every other exception. -/
inductive MqttException where
  | mqtt
  | cancelled
  | other
  deriving DecidableEq

/-- An entry of `_handlers`; the handlers are numbered. -/
structure Registration where
  topic : PyStr
  qos : ℤ
  handler : ℕ
  deriving DecidableEq

/-- An `aiomqtt.Message`. -/
structure Incoming where
  topic : PyStr
  payload : List UInt8
  qos : ℤ
  retain : Bool
  deriving DecidableEq

/-- What a handler gets. -/
structure MqttMessage where
  topic : PyStr
  payload : List UInt8
  qos : ℤ
  retained : Bool
  receivedAt : ℤ
  deriving DecidableEq

/-- `_validate_topic(topic)` -/
def validTopic (topic : PyStr) : Bool :=
  strip topic ≠ [] && !topic.contains (.scalar '+') && !topic.contains (.scalar '#')

/-- `_validate_qos(qos)` -/
def validQos (qos : ℤ) : Bool := qos = 0 || qos = 1 || qos = 2

/-- What the task waits for; `exit` is the end of `async with aiomqtt.Client(...)`. -/
inductive MqttCall where
  | connect
  | subscribe (topic : PyStr) (qos : ℤ)
  | next
  | handle (handler : ℕ) (message : MqttMessage)
  | exit
  | sleep
  deriving DecidableEq

inductive MqttValue where
  | none
  | message (m : Incoming)
  deriving DecidableEq

/-- How a call ends. -/
inductive MqttAnswer where
  | returned
  | message (m : Incoming)
  /-- There are no messages any more. -/
  | exhausted
  | raised (e : MqttException)
  deriving DecidableEq

/-- Where the caller of `start` and `stop` stands: it waits for the startup event, or for the end of
a task that it has cancelled. -/
inductive Owner where
  | absent
  | starting
  | abandoning
  | stopping
  deriving DecidableEq

/-- What happens around the task. -/
inductive MqttEvent where
  | register (r : Registration)
  | start
  | startReturns
  | startFails
  | startTimesOut
  | startCancelled
  | abandoned
  | stop
  | stopReturns
  | stopCancelled
  /-- `TaskManager.shutdown` -/
  | shutdown
  deriving DecidableEq

/-- What `publish` raises: a `ValueError`, or `MqttUnavailableError`. -/
inductive PublishError where
  | invalid
  | unavailable
  deriving DecidableEq

/-- The task, and the loops of `_run`; `connectedOnce` is its variable. -/
inductive MqttHead where
  | task
  | run (connectedOnce : Bool)
  | subscribeAll (connectedOnce : Bool) (size : ℕ) (i : ℕ)
  | messages
  | reconnect

/-- The fields of the client, its task and its connection. -/
structure MqttVars where
  handlers : List Registration := []
  /-- `_client`: the number of a connection. -/
  client : Option ℕ := none
  connected : Bool := false
  lastError : Option MqttException := none
  startupEvent : Bool := false
  /-- `_runner_task` is not None. -/
  runnerTask : Bool := false
  owner : Owner := .absent
  /-- A task was created and has not taken its first step. -/
  created : Bool := false
  /-- `cancel()` was called, and the task does not know it yet. -/
  cancelling : Bool := false
  /-- The task was told to end and has not got rid of it. -/
  quitting : Bool := false
  /-- The task has been connected. -/
  completed : Bool := false
  /-- `__aenter__` has returned, and `__aexit__` has not ended. -/
  live : Bool := false
  /-- How many connections were opened, and the topics subscribed on the last one. -/
  opened : ℕ := 0
  subscribed : List PyStr := []

/-- The programs of the client. -/
abbrev MqttSignature : Signature where
  Vars := MqttVars
  Reading := ℤ
  Call := MqttCall
  Value := MqttValue
  Answer := MqttAnswer
  Err := MqttException
  Head := MqttHead
  Event := MqttEvent

abbrev MqttProg (α : Type) : Type := Prog MqttSignature α

/-! ## The task -/

namespace MqttProg

def modify (f : MqttVars → MqttVars) : MqttProg Unit := Prog.modify f

def gets {α : Type} (f : MqttVars → α) : MqttProg α := Prog.gets f

def await (c : MqttCall) : MqttProg MqttValue := Prog.await c

def raise {α : Type} (e : MqttException) : MqttProg α := Prog.raise e

def goto (h : MqttHead) : MqttProg Unit := Prog.goto h

/-- `_dispatch(message)` -/
def dispatch (m : Incoming) : MqttProg Unit := do
  let handlers ← gets (·.handlers)
  match handlers.find? fun r => r.topic = m.topic with
  | none => pure ()
  | some r =>
      if validQos m.qos then do
        let receivedAt ← (Prog.reading : MqttProg ℤ)
        let message : MqttMessage := ⟨m.topic, m.payload, m.qos, m.retain, receivedAt⟩
        (await (.handle r.handler message) >>= fun _ => pure ()).attempt fun e =>
          match e with
          | .cancelled => raise .cancelled
          | _ => pure ()
      else raise .other

/-- The `finally` clause. -/
def disconnected : MqttProg Unit := do
  modify fun s => { s with connected := false }
  modify fun s => { s with client := none }

/-- The end of `async with` for an exception; one that is raised there takes its place. -/
def closing (body : MqttProg Unit) : MqttProg Unit :=
  body.attempt fun e => do
    let _ ← await .exit
    raise e

/-- The `except` and `finally` clauses. -/
def handled (connectedOnce : Bool) (body : MqttProg Unit) : MqttProg Unit :=
  body.attempt fun e =>
    match e with
    | .cancelled => do
        disconnected
        raise .cancelled
    | .mqtt => do
        modify fun s => { s with lastError := some .mqtt }
        if connectedOnce then do
          disconnected
          goto .reconnect
        else do
          modify fun s => { s with startupEvent := true }
          disconnected
    | .other => do
        modify fun s => { s with lastError := some .other }
        if connectedOnce then do
          disconnected
          raise .other
        else do
          modify fun s => { s with startupEvent := true }
          disconnected
          raise .other

/-- `while True` up to the first subscription. -/
def run (connectedOnce : Bool) : MqttProg Unit :=
  handled connectedOnce do
    let _ ← await .connect
    modify fun s => { s with client := some s.opened }
    let size ← gets (·.handlers.length)
    goto (.subscribeAll connectedOnce size 0)

/-- After the subscriptions. -/
def complete (connectedOnce : Bool) : MqttProg Unit := do
  modify fun s => { s with connected := true, completed := true }
  modify fun s => { s with lastError := none }
  if connectedOnce then goto .messages
  else do
    modify fun s => { s with startupEvent := true }
    goto .messages

/-- `_subscribe_all(client)`: a dictionary must not change its size under its iterator. -/
def subscribeAll (connectedOnce : Bool) (size i : ℕ) : MqttProg Unit :=
  handled connectedOnce (closing do
    let handlers ← gets (·.handlers)
    if handlers.length = size then
      match handlers[i]? with
      | some r => do
          let _ ← await (.subscribe r.topic r.qos)
          goto (.subscribeAll connectedOnce size (i + 1))
      | none => complete connectedOnce
    else raise .other)

/-- `async for message in client.messages` -/
def messages : MqttProg Unit :=
  handled true (closing do
    let v ← await .next
    match v with
    | .message m => do
        dispatch m
        goto .messages
    | .none => raise .mqtt)

def reconnect : MqttProg Unit := do
  let _ ← await .sleep
  goto (.run true)

/-- The first step of the task. -/
def task : MqttProg Unit := do
  modify fun s => { s with created := false, quitting := false, completed := false }
  goto (.run false)

end MqttProg

/-! ## Around the task -/

namespace MqttVars

variable (mode : Mode) (s : MqttVars)

/-- There is a task that is not done. -/
def active : Bool := mode ≠ .ended || s.created

/-- `register_handler(topic, handler, qos)`, without the errors. -/
def register (r : Registration) : MqttVars :=
  if validTopic r.topic && validQos r.qos && !(s.runnerTask && s.active mode) &&
      !(s.handlers.any fun q => q.topic = r.topic) then
    { s with handlers := s.handlers ++ [r] }
  else s

/-- `_cancel_runner()` up to its `await`; a task that has not begun never does. -/
def cancelRunner : MqttVars :=
  if s.runnerTask then
    { s with
      runnerTask := false, created := false
      cancelling := s.cancelling || mode = .waiting }
  else s

/-- `start()` up to its `await`; a task that is there under the same name is an error. -/
def startTask : MqttVars :=
  if s.runnerTask && s.active mode then s
  else
    let s := { s with startupEvent := false, connected := false, lastError := none }
    if s.active mode then s
    else { s with runnerTask := true, created := true, cancelling := false, owner := .starting }

/-- The end of `stop()`. -/
def stopped : MqttVars := { s with connected := false, client := none, owner := .absent }

/-- `gather` passes a cancellation on to the task. -/
def cancelGather : MqttVars :=
  { s with cancelling := s.cancelling || mode = .waiting, owner := .absent }

/-- An event.  The event loop runs something else only while the task waits, or is not running. -/
def disturb : MqttEvent → Option MqttVars := fun e =>
  if mode = .running then none
  else
    match e with
    | .register r => some (s.register mode r)
    | .start => if s.owner = .absent then some (s.startTask mode) else none
    | .startReturns =>
        if s.owner = .starting ∧ s.startupEvent = true ∧ s.connected = true then
          some { s with owner := .absent }
        else none
    | .startFails =>
        if s.owner = .starting ∧ s.startupEvent = true ∧ s.connected = false then
          some { s.cancelRunner mode with owner := .abandoning }
        else none
    | .startTimesOut =>
        if s.owner = .starting then some { s.cancelRunner mode with owner := .abandoning }
        else none
    | .startCancelled =>
        if s.owner = .starting then some { s with owner := .absent }
        else if s.owner = .abandoning then some (s.cancelGather mode)
        else none
    | .abandoned =>
        if s.owner = .abandoning ∧ s.active mode = false then some { s with owner := .absent }
        else none
    | .stop =>
        if s.owner ≠ .absent then none
        else if s.runnerTask then some { s.cancelRunner mode with owner := .stopping }
        else some s.stopped
    | .stopReturns =>
        if s.owner = .stopping ∧ s.active mode = false then some s.stopped else none
    | .stopCancelled => if s.owner = .stopping then some (s.cancelGather mode) else none
    | .shutdown => some { s with
        created := false, cancelling := s.cancelling || mode = .waiting }

/-- Handlers and the end of a connection can do anything with a cancellation. -/
def takesCancellation : MqttCall → Bool
  | .handle _ _ => true
  | .exit => true
  | _ => false

/-- `asyncio.sleep` has no errors of its own. -/
def possible : MqttCall → MqttAnswer → Bool
  | .sleep, .raised e => e = .cancelled
  | _, _ => true

/-- The end of a call. -/
def answer (c : MqttCall) (a : MqttAnswer) (s : MqttVars) :
    Option (Except MqttException MqttValue × MqttVars) :=
  if s.cancelling && !takesCancellation c && a ≠ .raised .cancelled || !possible c a then none
  else
    let s := { s with cancelling := false }
    match c, a with
    | c, .raised e =>
        some (.error e, { s with quitting := e = .cancelled, live := s.live && c ≠ .exit })
    | .connect, .returned =>
        some (.ok .none, { s with live := true, opened := s.opened + 1, subscribed := [] })
    | .subscribe topic _, .returned =>
        some (.ok .none, { s with subscribed := topic :: s.subscribed })
    | .next, .message m => some (.ok (.message m), s)
    | .next, .exhausted => some (.ok .none, s)
    | .handle _ _, .returned => some (.ok .none, s)
    | .exit, .returned => some (.ok .none, { s with live := false })
    | .sleep, .returned => some (.ok .none, s)
    | _, _ => none

/-- `publish(topic, payload, qos, retain)` up to its `await`: the connection that takes it. -/
def publish (topic : PyStr) (qos : ℤ) : Except PublishError ℕ :=
  if validTopic topic && validQos qos then
    match s.connected, s.client with
    | true, some n => .ok n
    | _, _ => .error .unavailable
  else .error .invalid

end MqttVars

def mqttClient : System MqttSignature where
  body
    | .task => MqttProg.task
    | .run connectedOnce => MqttProg.run connectedOnce
    | .subscribeAll connectedOnce size i => MqttProg.subscribeAll connectedOnce size i
    | .messages => MqttProg.messages
    | .reconnect => MqttProg.reconnect
  begin := fun _ s => s
  answer := MqttVars.answer
  disturb := fun mode e s => s.disturb mode e
  callable
    | .task, s => s.created
    | _, _ => false

end SmartDesk.Mqtt
