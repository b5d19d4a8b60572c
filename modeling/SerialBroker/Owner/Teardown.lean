import SerialBroker.Owner.PortSupervisor

/-!
# Closing what lost connections left open

`#trackTeardown`, `#closeWhenOpened`, `#closeConnection`, `#closeAfterWrites` and `#closeStep` of
`owner/port-supervisor.ts`, and the two that wait for them: `#stop` (with `#answered`) and the
beginning of `#findPort`. A close runs until it waits for a step, which settles, rejects or runs out
of time, and the call that begins the next step may throw instead of returning a promise:
`#closeStep` is handed the promise the call returned, so nothing catches what is thrown, and the
promise of the close rejects. A `releaseLock` that throws changes nothing.

Time passes only while nothing is due: a timer fires on time, and a function whose promise has
settled has gone on before. What `stop()`, the loss handler and `followDevice` found open is a
parameter of their events, because the callbacks they make may have changed the state since; for the
same reason `stop()` may run more than once.
-/

namespace SerialBroker

abbrev StopId := Nat
abbrev AttemptId := Nat

/-- The deadlines of the waits. -/
structure WaitConfig where
  openTimeoutMs : Nat
  writeTimeoutMs : Nat

/-- What a close calls of the port and its streams. -/
inductive CloseCall
  | cancel | releaseReader | abort | releaseWriter | close
  deriving DecidableEq

inductive ClosePhase
  | waiting (step : CloseStep) (due : Nat)
  | finished
  | threw
  deriving DecidableEq

/-- A close: of a connection, or of a port whose `open()` is pending. `calls` and `ends` record its
run. -/
structure PortClose where
  id : CloseId
  isOpening : Bool
  begun : Nat
  phase : ClosePhase
  calls : List CloseCall
  ends : List StepEnd
  deriving DecidableEq

inductive StopPhase
  | draining (due : Nat)
  | awaitingTeardown (closes : List CloseId)
  | answering (due : Nat)
  | resolved
  | rejected
  deriving DecidableEq

/-- A run of `#stop`. -/
structure StopRun where
  id : StopId
  begun : Nat
  phase : StopPhase
  deriving DecidableEq

inductive AttemptPhase
  | awaitingTeardown (closes : List CloseId)
  | wentOn
  | threw
  deriving DecidableEq

/-- An attempt to connect, as far as it waits for the teardown. -/
structure ConnectAttempt where
  id : AttemptId
  begun : Nat
  phase : AttemptPhase
  deriving DecidableEq

structure Teardown where
  closes : List PortClose
  /-- The closes the promise `#teardown` stands for. -/
  teardown : Option (List CloseId)
  stops : List StopRun
  attempts : List ConnectAttempt
  monotonicNow : Nat
  deriving DecidableEq

/-- The step that follows in a close. -/
def CloseStep.next : CloseStep → Option CloseStep
  | .draining => some .cancelling
  | .cancelling => some .aborting
  | .aborting | .waitingForOpen => some .closing
  | .closing => none

/-- What is called between the end of a step and the wait for the next. -/
def CloseStep.nextCalls : CloseStep → List CloseCall
  | .draining => [.cancel]
  | .cancelling => [.releaseReader, .abort]
  | .aborting => [.releaseWriter, .close]
  | .waitingForOpen => [.close]
  | .closing => []

namespace Teardown

def init : Teardown :=
  { closes := [], teardown := none, stops := [], attempts := [], monotonicNow := 0 }

def phase? (s : Teardown) (close : CloseId) : Option ClosePhase :=
  (KeyedList.lookup PortClose.id close s.closes).map PortClose.phase

/-- Whether the promise of these closes has rejected. -/
def hasThrown (s : Teardown) (closes : List CloseId) : Bool :=
  closes.any fun close => s.phase? close = some .threw

/-- Whether it has been fulfilled. -/
def hasFinished (s : Teardown) (closes : List CloseId) : Bool :=
  closes.all fun close => s.phase? close = some .finished

def setStop (s : Teardown) (id : StopId) (phase : StopPhase) : Teardown :=
  { s with stops := KeyedList.adjust StopRun.id id (fun stop => { stop with phase }) s.stops }

def setAttempt (s : Teardown) (id : AttemptId) (phase : AttemptPhase) : Teardown :=
  { s with
    attempts := KeyedList.adjust ConnectAttempt.id id (fun attempt =>
      { attempt with phase }) s.attempts }

variable (config : WaitConfig)

/-- `#trackTeardown` with a close that begins with `step`; `isThrown` says whether its first call
throws. -/
def trackTeardown (s : Teardown) (step : CloseStep) (isThrown : Bool) : Teardown :=
  let calls := if step = .cancelling then [CloseCall.cancel] else []
  let phase := if isThrown ∧ step = .cancelling then ClosePhase.threw
    else .waiting step (s.monotonicNow + config.openTimeoutMs)
  { s with
    closes := s.closes ++
      [⟨s.closes.length, step = .waitingForOpen, s.monotonicNow, phase, calls, []⟩]
    teardown := some (s.teardown.getD [] ++ [s.closes.length]) }

/-- Begins to close what is open in the state that is left. -/
def closeLost (s : Teardown) (previous : ConnectionState) (step : CloseStep) (isThrown : Bool) :
    Teardown :=
  match previous with
  | .open .. => s.trackTeardown config step isThrown
  | .opening .. => s.trackTeardown config .waitingForOpen isThrown
  | _ => s

/-- What a close goes on with when a step has ended: a failed step keeps nothing from following, but
for an `open()` that opened nothing. -/
def nextPhase (now : Nat) (step : CloseStep) (how : StepEnd) (isThrown : Bool) : ClosePhase :=
  if step = .waitingForOpen ∧ how = .rejected then .finished
  else match step.next with
    | none => .finished
    | some next => if isThrown then .threw else .waiting next (now + config.openTimeoutMs)

def nextCalls (step : CloseStep) (how : StepEnd) : List CloseCall :=
  if step = .waitingForOpen ∧ how = .rejected then [] else step.nextCalls

def endStep (s : Teardown) (close : CloseId) (step : CloseStep) (how : StepEnd) (isThrown : Bool) :
    Teardown :=
  { s with closes := KeyedList.adjust PortClose.id close (fun c => { c with
      phase := nextPhase config s.monotonicNow step how isThrown
      calls := c.calls ++ nextCalls step how
      ends := c.ends ++ [how] }) s.closes }

/-- `#stop` until its first `await`. -/
def stop (s : Teardown) (previous : ConnectionState) : Teardown :=
  match previous with
  | .open .. => { s with
    stops := s.stops ++
      [⟨s.stops.length, s.monotonicNow, .draining (s.monotonicNow + config.openTimeoutMs)⟩] }
  | _ =>
    let s := s.closeLost config previous .cancelling false
    { s with
      stops := s.stops ++
        [⟨s.stops.length, s.monotonicNow, .awaitingTeardown (s.teardown.getD [])⟩] }

/-- `#stop` once the writes were drained, or not in time. -/
def stopDrained (s : Teardown) (id : StopId) (isThrown : Bool) : Teardown :=
  let s := s.trackTeardown config .cancelling isThrown
  s.setStop id (.awaitingTeardown (s.teardown.getD []))

/-- `#findPort` until its first `await`. -/
def findPort (s : Teardown) : Teardown :=
  let phase := match s.teardown with
    | some closes => AttemptPhase.awaitingTeardown closes
    | none => .wentOn
  { s with attempts := s.attempts ++ [⟨s.attempts.length, s.monotonicNow, phase⟩] }

/-- Whether nothing is due before this much time has passed. -/
def canPass (s : Teardown) (ms : Nat) : Bool :=
  (s.closes.all fun close => match close.phase with
    | .waiting _ due => s.monotonicNow + ms ≤ due
    | .finished | .threw => true) &&
  (s.stops.all fun stop => match stop.phase with
    | .draining due | .answering due => s.monotonicNow + ms ≤ due
    | .awaitingTeardown closes => !s.hasThrown closes && !s.hasFinished closes
    | .resolved | .rejected => true) &&
  s.attempts.all fun attempt => match attempt.phase with
    | .awaitingTeardown closes => !s.hasThrown closes && !s.hasFinished closes
    | .wentOn | .threw => true

end Teardown

/-- What happens to the closes of a supervisor and to what waits for them. -/
inductive TeardownEvent
  | left (previous : ConnectionState) (isAfterWrites : Bool) (isThrown : Bool)
  | stop (previous : ConnectionState)
  | attempt
  | closeStep (close : CloseId) (how : StepEnd) (isThrown : Bool)
  | drained (stop : StopId) (isTimeout : Bool) (isThrown : Bool)
  | stopGoesOn (stop : StopId) (isAnswered : Bool)
  | answered (stop : StopId) (isTimeout : Bool)
  | attemptGoesOn (attempt : AttemptId)
  | teardownForgotten
  | tick (ms : Nat)
  deriving DecidableEq

namespace Teardown

variable (config : WaitConfig)

/-- What one event makes of the closes, if it can happen now. -/
def step (s : Teardown) : TeardownEvent → Option Teardown
  | .left previous isAfterWrites isThrown =>
    some (s.closeLost config previous (if isAfterWrites then .draining else .cancelling) isThrown)
  | .stop previous => some (s.stop config previous)
  | .attempt => some s.findPort
  | .closeStep close how isThrown =>
    match s.phase? close with
    | some (.waiting step due) =>
      if how = .timedOut ∧ s.monotonicNow < due then none
      else some (s.endStep config close step how isThrown)
    | _ => none
  | .drained id isTimeout isThrown =>
    match (KeyedList.lookup StopRun.id id s.stops).map StopRun.phase with
    | some (.draining due) =>
      if isTimeout ∧ s.monotonicNow < due then none else some (s.stopDrained config id isThrown)
    | _ => none
  | .stopGoesOn id isAnswered =>
    match (KeyedList.lookup StopRun.id id s.stops).map StopRun.phase with
    | some (.awaitingTeardown closes) =>
      if s.hasThrown closes then some (s.setStop id .rejected)
      else if s.hasFinished closes then
        some (s.setStop id (if isAnswered then .resolved
          else .answering (s.monotonicNow + config.writeTimeoutMs)))
      else none
    | _ => none
  | .answered id isTimeout =>
    match (KeyedList.lookup StopRun.id id s.stops).map StopRun.phase with
    | some (.answering due) =>
      if isTimeout ∧ s.monotonicNow < due then none else some (s.setStop id .resolved)
    | _ => none
  | .attemptGoesOn id =>
    match (KeyedList.lookup ConnectAttempt.id id s.attempts).map ConnectAttempt.phase with
    | some (.awaitingTeardown closes) =>
      if s.hasThrown closes then some (s.setAttempt id .threw)
      else if s.hasFinished closes then some (s.setAttempt id .wentOn)
      else none
    | _ => none
  | .teardownForgotten =>
    match s.teardown with
    | some closes => if s.hasFinished closes then some { s with teardown := none } else none
    | none => none
  | .tick ms => if s.canPass ms then some { s with monotonicNow := s.monotonicNow + ms } else none

/-- The runs of the closes of one supervisor, under any port. -/
def teardownRuns : TransitionSystem Teardown TeardownEvent := ⟨init, step config⟩

end Teardown

end SerialBroker
