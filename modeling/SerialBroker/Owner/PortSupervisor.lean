import SerialBroker.Lib.KeyedList
import SerialBroker.Lib.TransitionSystem
import SerialBroker.Protocol.Messages

/-!
# The supervisor of one port

`PortSupervisor` as `owner/port-supervisor.ts` computes it, one step at a time. A method runs until
it calls the application back or returns: what it goes on with after a callback is a `Frame`, and
while a frame is left the application may call the supervisor again. What an `async` function goes
on with after an `await` is a `Task`, resumed with the answer it waited for once no call is running;
an `async` helper that returned and the caller that goes on are two tasks, because anything may
happen between them. Ports, streams and timers answer whenever they like.

Every step of a close settles, is refused, or runs out of time, and `#closeStep` swallows which. A
port whose streams somebody holds refuses to close: `locks` is what `getReader()` and `getWriter()`
locked and no `releaseLock()` has let go of.

A write is here what it does to the connection: a chunk of it may fail, and the queue and the
answers may take any time to drain. The numbers in `Frame` and `Supervisor` that the source does not
keep (`left`, `opens`, `reports`, `hasStopped`, `stopsResolved`) record what happened, and no method
reads them.
-/

namespace SerialBroker

abbrev PortId := Nat
abbrev OpenId := Nat
abbrev CloseId := Nat
abbrev TimerId := Nat
abbrev Generation := Nat

/-- Collected bytes are delivered as soon as there are this many. -/
def maxReceiveDeliveryBytes : Nat := 64 * 1024

/-- What the supervisor reads of its configuration; no `maxAttempts` is `Infinity`. -/
structure ConnectionConfig where
  autoReconnect : Bool
  maxAttempts : Option Nat
  stableAfterMs : Nat
  receiveIdleMs : Nat

/-! ### counting attempts -/

structure BackoffState where
  attempt : Nat
  connectedAt : Option Nat
  losses : Nat
  deriving DecidableEq

namespace BackoffState

def reset : BackoffState := ⟨0, none, 0⟩

def recordAttempt (b : BackoffState) : BackoffState := { b with attempt := b.attempt + 1 }

def recordConnected (b : BackoffState) (now : Nat) : BackoffState :=
  { b with connectedAt := some now }

def recordDisconnected (b : BackoffState) (now stableAfterMs : Nat) : BackoffState :=
  match b.connectedAt with
  | some connectedAt =>
    if now - connectedAt ≥ stableAfterMs then ⟨0, none, 1⟩ else ⟨b.attempt, none, b.losses + 1⟩
  | none => ⟨b.attempt, none, b.losses + 1⟩

def hasExhausted (b : BackoffState) (maxAttempts : Option Nat) : Bool :=
  match maxAttempts with
  | some limit => b.attempt ≥ limit
  | none => false

end BackoffState

/-- `RETRYABLE_CODES`. -/
def SerialBrokerErrorCode.isRetryable : SerialBrokerErrorCode → Bool
  | .DEVICE_DISCONNECTED | .OPEN_FAILED | .OPEN_TIMEOUT | .READ_FAILED => true
  | _ => false

/-! ### the state -/

/-- The connection; an open port is told from an earlier opening of it by its call of `open()`. -/
inductive ConnectionState
  | idle
  | awaitingPermission
  | listing
  | opening (port : PortId) (openId : OpenId)
  | open (port : PortId) (openId : OpenId)
  | reconnecting (timer : TimerId)
  | failed
  | stopped
  deriving DecidableEq

/-- What a loss leads to. -/
inductive AfterLoss
  | retry | giveUp
  deriving DecidableEq

def AfterLoss.of (code : SerialBrokerErrorCode) : AfterLoss :=
  if code.isRetryable then .retry else .giveUp

/-- What a method goes on with once its callback returns; `left` is the generation it left
behind. -/
inductive Frame
  | done
  | connecting (generation : Generation)
  | openReported (generation : Generation) (openId : OpenId)
  | pushed (generation : Generation) (openId : OpenId)
  | lossFlushed (previous : ConnectionState) (code : SerialBrokerErrorCode) (next : AfterLoss)
  | lossReported (previous : ConnectionState) (next : AfterLoss) (left : Generation)
  | listingReported (left : Generation)
  | exhausted
  | followFlushed (previous : ConnectionState) (left : Generation)
  | stopFlushed (previous : ConnectionState)
  | stopReported
  deriving DecidableEq

/-- What an `async` function waits for. -/
inductive Task
  | awaitTeardown (generation : Generation) (closes : List CloseId)
  | awaitListing (generation : Generation)
  | foundPort (generation : Generation) (port : PortId)
  | awaitOpen (generation : Generation) (port : PortId) (openId : OpenId)
  | openedPort (generation : Generation) (port : PortId) (openId : OpenId)
  | reading (generation : Generation) (openId : OpenId)
  | stopDraining (openId : OpenId)
  | stopTeardown (closes : List CloseId)
  | stopAnswered
  deriving DecidableEq

/-- What a task is answered with; where the streams of an open port are taken, `threw` is
`getReader()` and `writerThrew` is `getWriter()` after it. -/
inductive Answer
  | done
  | found (port : Option PortId)
  | listingTimedOut
  | listingRefused
  | threw (code : SerialBrokerErrorCode)
  | writerThrew (code : SerialBrokerErrorCode)
  | opened
  | openFailed (code : SerialBrokerErrorCode)
  | openTimedOut
  | streams (isMissing : Bool)
  | chunk (bytes : Nat)
  | ended
  | readFailed (code : SerialBrokerErrorCode)
  deriving DecidableEq

/-- The step a close waits for: `closeAfterWrites`, `closeWhenOpened` and `closeConnection` in their
order. -/
inductive CloseStep
  | draining | waitingForOpen | cancelling | aborting | closing
  deriving DecidableEq

/-- How a step of a close ended. -/
inductive StepEnd
  | settled | rejected | timedOut
  deriving DecidableEq

/-- A close in progress, of what one call of `open()` opened. -/
structure Closing where
  id : CloseId
  openId : OpenId
  step : CloseStep
  deriving DecidableEq

/-- The lock of a reader or a writer on a stream of an open port. -/
inductive StreamLock
  | reader (openId : OpenId)
  | writer (openId : OpenId)
  deriving DecidableEq

def StreamLock.openId : StreamLock → OpenId
  | .reader openId | .writer openId => openId

inductive OpenPhase
  | pending | opened | failed | closed
  deriving DecidableEq

/-- One call of `port.open()`, what became of it, and whether `stop()` had stopped the supervisor
before. -/
structure OpenCall where
  id : OpenId
  port : PortId
  phase : OpenPhase
  isAfterStop : Bool
  deriving DecidableEq

structure Supervisor where
  state : ConnectionState
  status : SerialBrokerStatus
  deviceConnectedWhileListing : Bool
  foundPort : Option PortId
  foundPortDetached : Bool
  /-- The closes the promise `#teardown` stands for. -/
  teardown : Option (List CloseId)
  isStopping : Bool
  backoff : BackoffState
  generation : Generation
  /-- Bytes the receive buffer holds. -/
  buffered : Nat
  /-- Callbacks that have not returned, the innermost first, and functions that wait. -/
  stack : List Frame
  tasks : List Task
  /-- Reconnect timers that are pending, closes in progress, calls of `open()`. -/
  timers : List TimerId
  nextTimer : TimerId
  closes : List Closing
  nextClose : CloseId
  opens : List OpenCall
  locks : List StreamLock
  monotonicNow : Nat
  hasStopped : Bool
  stopsResolved : Nat
  reports : List SerialBrokerErrorCode
  deriving DecidableEq

namespace Supervisor

def init : Supervisor :=
  { state := .idle, status := .idle, deviceConnectedWhileListing := false, foundPort := none,
    foundPortDetached := false,
    teardown := none, isStopping := false, backoff := .reset, generation := 0, buffered :=
    0, stack := [], tasks := [],
    timers := [], nextTimer := 0, closes := [], nextClose := 0, opens := [], locks :=
    [], monotonicNow := 0, hasStopped := false,
    stopsResolved := 0, reports := [] }

/-- Whether the world moved on while an `await` was pending. -/
def isStale (s : Supervisor) (generation : Generation) : Bool :=
  s.generation ≠ generation ∨ s.state = .stopped

/-- Calls the application back and goes on with `next` once it returns. -/
def callback (s : Supervisor) (next : Frame) : Supervisor := { s with stack := next :: s.stack }

def wait (s : Supervisor) (task : Task) : Supervisor := { s with tasks := s.tasks ++ [task] }

def lockStreams (s : Supervisor) (locks : List StreamLock) : Supervisor :=
  { s with locks := s.locks ++ locks }

def clearTimer (s : Supervisor) (timer : TimerId) : Supervisor :=
  { s with timers := s.timers.erase timer }

/-- `#setStatus` as the last thing a method does. -/
def setStatus (s : Supervisor) (status : SerialBrokerStatus) : Supervisor :=
  if s.status = status then s else callback { s with status } .done

/-- `#report`. -/
def report (s : Supervisor) (code : SerialBrokerErrorCode) (next : Frame) : Supervisor :=
  callback { s with reports := s.reports ++ [code] } next

def trackTeardown (s : Supervisor) (openId : OpenId) (step : CloseStep) : Supervisor :=
  { s with
    closes := s.closes ++ [⟨s.nextClose, openId, step⟩]
    nextClose := s.nextClose + 1
    teardown := some (s.teardown.getD [] ++ [s.nextClose]) }

/-- Whether all these closes have finished. -/
def hasClosed (s : Supervisor) (closes : List CloseId) : Bool :=
  s.closes.all fun close => close.id ∉ closes

/-! ### connecting -/

/-- One round of the loop of `#findPort`: lists the granted ports. -/
def listPorts (s : Supervisor) (generation : Generation) : Supervisor :=
  { s with deviceConnectedWhileListing := false }.wait (.awaitListing generation)

/-- The beginning of `#findPort`. -/
def findPort (s : Supervisor) (generation : Generation) : Supervisor :=
  match s.teardown with
  | some closes => s.wait (.awaitTeardown generation closes)
  | none => s.listPorts generation

def connect (s : Supervisor) : Supervisor :=
  if s.state = .stopped then s
  else
    let generation := s.generation + 1
    let s := { s with generation, backoff := s.backoff.recordAttempt, state := .listing }
    if s.status = .connecting then s.findPort generation
    else callback { s with status := .connecting } (.connecting generation)

def giveUp (s : Supervisor) : Supervisor := { s with state := .failed }.setStatus .failed

variable (config : ConnectionConfig)

def recordFailedAttempt (s : Supervisor) : Supervisor :=
  if config.autoReconnect = false then s.giveUp
  else
    let s := { s with backoff := s.backoff.recordDisconnected s.monotonicNow config.stableAfterMs }
    if s.backoff.hasExhausted config.maxAttempts then
      let s := { s with state := .failed }
      if s.status = .failed then s.report .RECONNECT_EXHAUSTED .done
      else callback { s with status := .failed } .exhausted
    else
      { s with
        timers := s.nextTimer :: s.timers
        nextTimer := s.nextTimer + 1
        state := .reconnecting s.nextTimer }.setStatus .reconnecting

/-- `#handleConnectionLoss` from the call of `#report`. -/
def reportLoss (s : Supervisor) (previous : ConnectionState) (code : SerialBrokerErrorCode)
    (next : AfterLoss) : Supervisor :=
  { s with generation := s.generation + 1 }.report code
    (.lossReported previous next (s.generation + 1))

def handleConnectionLoss (s : Supervisor) (code : SerialBrokerErrorCode) (next : AfterLoss) :
    Supervisor :=
  match s.state with
  | .stopped | .reconnecting _ => s
  | .open port openId =>
    if s.buffered > 0 then callback
      { s with buffered := 0 } (.lossFlushed (.open port openId) code next)
    else s.reportLoss (.open port openId) code next
  | previous => s.reportLoss previous code next

/-- `#handleConnectionLoss` after the call of `#report`. -/
def afterLoss (s : Supervisor) (previous : ConnectionState) (next : AfterLoss) : Supervisor :=
  let s := match previous with
    | .open _ openId => s.trackTeardown openId .cancelling
    | .opening _ openId => s.trackTeardown openId .waitingForOpen
    | _ => s
  match next with
  | .giveUp => s.giveUp
  | .retry => s.recordFailedAttempt config

/-- `#findPort` once the ports were listed. -/
def listed (s : Supervisor) (generation : Generation) (found : Option PortId) : Supervisor :=
  if s.isStale generation then s
  else match found with
    | some port => s.wait (.foundPort generation port)
    | none =>
      if s.deviceConnectedWhileListing then s.listPorts generation
      else if s.foundPortDetached then s.recordFailedAttempt config
      else { s with state := .awaitingPermission }.setStatus .awaitingPermission

/-- `#listingFailed`, unless the attempt is stale. -/
def listingFailed (s : Supervisor) (generation : Generation) (isTimeout : Bool) : Supervisor :=
  if s.isStale generation then s
  else if isTimeout then s.handleConnectionLoss .OPEN_TIMEOUT .retry
  else s.report .WEB_SERIAL_UNAVAILABLE (.listingReported s.generation)

/-- The handler of `#connect` for a port that throws. -/
def connectThrew (s : Supervisor) (generation : Generation) (code : SerialBrokerErrorCode) :
    Supervisor :=
  if s.isStale generation then s else s.handleConnectionLoss code (.of code)

/-- `#connect` goes on with the port that was found, and `#open` calls its `open()`. -/
def openPort (s : Supervisor) (generation : Generation) (port : PortId) : Supervisor :=
  let openId := s.opens.length
  let s := { s with
    foundPort := some port
    foundPortDetached := false
    opens := s.opens ++ [OpenCall.mk openId port .pending s.hasStopped]
    state := .opening port openId }
  s.wait (.awaitOpen generation port openId)

/-- The same for a port whose `open()` throws. -/
def openPortThrew (s : Supervisor) (generation : Generation) (port : PortId)
    (code : SerialBrokerErrorCode) : Supervisor :=
  let s := { s with
    foundPort := some port
    foundPortDetached := false
    opens := s.opens ++ [OpenCall.mk s.opens.length port .failed s.hasStopped] }
  s.connectThrew generation code

/-- `#open` once `open()` has failed or not settled in time. -/
def openFailed (s : Supervisor) (generation : Generation) (code : SerialBrokerErrorCode) :
    Supervisor :=
  if s.isStale generation then s else s.handleConnectionLoss code (.of code)

/-- `#open` once `open()` has succeeded. -/
def openSucceeded (s : Supervisor) (generation : Generation) (port : PortId) (openId : OpenId) :
    Supervisor :=
  if s.isStale generation then s else s.wait (.openedPort generation port openId)

/-- `#connect` goes on with the port that was opened: `#startReading`. -/
def startReading (s : Supervisor) (generation : Generation) (port : PortId) (openId : OpenId)
    (isMissing : Bool) : Supervisor :=
  if isMissing then s.handleConnectionLoss .OPEN_FAILED .retry
  else
    let s := { s.lockStreams [.reader openId, .writer openId] with
      state := .open port openId
      buffered := 0
      backoff := s.backoff.recordConnected s.monotonicNow }
    if s.status = .open then s.wait (.reading generation openId)
    else callback { s with status := .open } (.openReported generation openId)

/-! ### reading -/

/-- `#readUntilClosed` with the chunk it read: `ReceiveBuffer.push`, and the next read. -/
def readChunk (s : Supervisor) (generation : Generation) (openId : OpenId) (bytes : Nat) :
    Supervisor :=
  if s.isStale generation then s
  else if bytes = 0 then s.wait (.reading generation openId)
  else
    let buffered := s.buffered + bytes
    if config.receiveIdleMs = 0 ∨ buffered ≥ maxReceiveDeliveryBytes then
      callback { s with buffered := 0 } (.pushed generation openId)
    else { s with buffered }.wait (.reading generation openId)

/-- `#readUntilClosed` once the stream has ended or failed. -/
def readEnded (s : Supervisor) (generation : Generation) (code : SerialBrokerErrorCode) :
    Supervisor :=
  if s.isStale generation then s else s.handleConnectionLoss code .retry

/-! ### stopping -/

/-- `#stop` from the change of the state to its first `await`; its promise is kept in `#stopping`
then. -/
def stopNow (s : Supervisor) (previous : ConnectionState) : Supervisor :=
  let s := { s with state := .stopped, hasStopped := true, isStopping := true }
  match previous with
  | .reconnecting timer => (s.clearTimer timer).wait (.stopTeardown (s.teardown.getD []))
  | .open _ openId => s.wait (.stopDraining openId)
  | .opening _ openId =>
    let s := s.trackTeardown openId .waitingForOpen
    s.wait (.stopTeardown (s.teardown.getD []))
  | _ => s.wait (.stopTeardown (s.teardown.getD []))

def stop (s : Supervisor) : Supervisor :=
  if s.isStopping then s
  else
    let s := { s with generation := s.generation + 1 }
    match s.state with
    | .open port openId =>
      if s.buffered > 0 then callback { s with buffered := 0 } (.stopFlushed (.open port openId))
      else s.stopNow (.open port openId)
    | previous => s.stopNow previous

/-- `#stop` once the writes were drained, or not in time. -/
def stopDrained (s : Supervisor) (openId : OpenId) : Supervisor :=
  let s := s.trackTeardown openId .cancelling
  s.wait (.stopTeardown (s.teardown.getD []))

/-- `#stop` once the writes were answered, or not in time. -/
def stopEnd (s : Supervisor) : Supervisor :=
  if s.status = .idle then { s with stopsResolved := s.stopsResolved + 1 }
  else callback { s with status := .idle } .stopReported

/-! ### the other calls -/

def start (s : Supervisor) (isFailed : Bool) : Supervisor :=
  if s.state ≠ .idle then s else if isFailed then
    { s with state := .failed }.setStatus .failed
  else s.connect

def retry (s : Supervisor) : Supervisor :=
  if s.state = .failed ∨ s.state = .awaitingPermission then
    { s with backoff := .reset, state := .idle }.connect
  else s

def useGrantedPort (s : Supervisor) : Supervisor :=
  match s.state with
  | .stopped | .open .. | .opening .. => s
  | .reconnecting timer => { s.clearTimer timer with backoff := .reset, state := .idle }.connect
  | _ => { s with backoff := .reset, state := .idle }.connect

/-- `followDevice` from the call of `#trackTeardown`. -/
def followNow (s : Supervisor) (previous : ConnectionState) : Supervisor :=
  let s := match previous with
    | .open _ openId => s.trackTeardown openId .draining
    | .opening _ openId => s.trackTeardown openId .waitingForOpen
    | _ => s
  { s with backoff := .reset, state := .idle }.connect

/-- `followDevice`; `matchesDevice` says whether the port of the connection is still the device. -/
def followDevice (s : Supervisor) (matchesDevice : Bool) : Supervisor :=
  match s.state with
  | .stopped => s
  | .opening port openId =>
    if matchesDevice then s
    else { s with
      generation := s.generation + 1
      foundPort := none
      foundPortDetached := false }.followNow (.opening port openId)
  | .open port openId =>
    if matchesDevice then s
    else
      let s := { s with
        generation := s.generation + 1
        foundPort := none
        foundPortDetached := false }
      if s.buffered > 0 then callback
        { s with buffered := 0 } (.followFlushed (.open port openId) s.generation)
      else s.followNow (.open port openId)
  | .reconnecting timer =>
    { s.clearTimer timer with
        generation := s.generation + 1
        foundPort := none
        foundPortDetached := false }.followNow
      (.reconnecting timer)
  | previous =>
    { s with
      generation := s.generation + 1
      foundPort := none
      foundPortDetached := false }.followNow previous

def handleDeviceConnected (s : Supervisor) : Supervisor :=
  let s := { s with foundPortDetached := false }
  match s.state with
  | .listing => { s with deviceConnectedWhileListing := true }
  | .reconnecting timer => (s.clearTimer timer).connect
  | .failed =>
    if config.autoReconnect = false then s else { s with backoff := .reset, state := .idle }.connect
  | .awaitingPermission => { s with backoff := .reset, state := .idle }.connect
  | _ => s

/-- `handleDeviceDisconnected`; no port is a `null` event target. -/
def handleDeviceDisconnected (s : Supervisor) (port : Option PortId) : Supervisor :=
  if s.foundPort = none ∨ (port ≠ none ∧ port ≠ s.foundPort) then s
  else
    let s := { s with foundPortDetached := true }
    match s.state with
    | .open .. | .opening .. => s.handleConnectionLoss .DEVICE_DISCONNECTED .retry
    | .awaitingPermission => s.recordFailedAttempt config
    | _ => s

/-- The callback of the reconnect timer. -/
def timerFired (s : Supervisor) : Supervisor :=
  match s.state with
  | .reconnecting _ => s.connect
  | _ => s

/-- A chunk written on the connection failed. -/
def writeFailed (s : Supervisor) (openId : OpenId) : Supervisor :=
  match s.state with
  | .open _ current => if current = openId then s.handleConnectionLoss .WRITE_FAILED .retry else s
  | _ => s

end Supervisor

/-! ### events -/

/-- A public method; what `followDevice` finds of the device in effect is a parameter. -/
inductive SupervisorCall
  | start (isFailed : Bool)
  | stop
  | retry
  | useGrantedPort
  | followDevice (matchesDevice : Bool)
  deriving DecidableEq

/-- What happens to a supervisor. A call may come at any time, also from a callback; everything else
only while none is running. -/
inductive SupervisorEvent
  | call (call : SupervisorCall)
  | returned
  | resume (task : Task) (answer : Answer)
  | timer (timer : TimerId)
  | receiveTimer
  | writeFailed (openId : OpenId)
  | deviceConnected
  | deviceDisconnected (port : Option PortId)
  | openSettled (openId : OpenId) (isOpen : Bool)
  | closeStep (close : CloseId) (how : StepEnd)
  | teardownForgotten
  | tick (ms : Nat)
  deriving DecidableEq

namespace Supervisor

variable (config : ConnectionConfig)

def perform (s : Supervisor) : SupervisorCall → Supervisor
  | .start isFailed => s.start isFailed
  | .stop => s.stop
  | .retry => s.retry
  | .useGrantedPort => s.useGrantedPort
  | .followDevice matchesDevice => s.followDevice matchesDevice

/-- What the method goes on with after its callback. -/
def goOn (s : Supervisor) : Frame → Supervisor
  | .done => s
  | .connecting generation => s.findPort generation
  | .openReported generation openId | .pushed generation openId =>
    s.wait (.reading generation openId)
  | .lossFlushed previous code next => s.reportLoss previous code next
  | .lossReported previous next _ => s.afterLoss config previous next
  | .listingReported _ => s.giveUp
  | .exhausted => s.report .RECONNECT_EXHAUSTED .done
  | .followFlushed previous _ => s.followNow previous
  | .stopFlushed previous => s.stopNow previous
  | .stopReported => { s with stopsResolved := s.stopsResolved + 1 }

def phase? (s : Supervisor) (openId : OpenId) : Option OpenPhase :=
  (KeyedList.lookup OpenCall.id openId s.opens).map OpenCall.phase

/-- What the function goes on with after its `await`, if the answer is one it can get now. -/
def resume (s : Supervisor) : Task → Answer → Option Supervisor
  | .awaitTeardown generation closes, .done =>
    if s.hasClosed closes then
      some (if s.isStale generation then s else s.listPorts generation) else none
  | .awaitListing generation, .found port => some (s.listed config generation port)
  | .awaitListing generation, .listingTimedOut => some (s.listingFailed generation true)
  | .awaitListing generation, .listingRefused => some (s.listingFailed generation false)
  | .foundPort generation port, .done => some (s.openPort generation port)
  | .foundPort generation port, .threw code => some (s.openPortThrew generation port code)
  | .awaitOpen generation port openId, .opened =>
    if s.phase? openId = some .opened then some (s.openSucceeded generation port openId) else none
  | .awaitOpen generation _ openId, .openFailed code =>
    if s.phase? openId = some .failed then some (s.openFailed generation code) else none
  | .awaitOpen generation _ _, .openTimedOut => some (s.openFailed generation .OPEN_TIMEOUT)
  | .openedPort generation port openId, .streams isMissing =>
    some (s.startReading generation port openId isMissing)
  | .openedPort generation _ _, .threw code => some (s.connectThrew generation code)
  | .openedPort generation _ openId, .writerThrew code =>
    some ((s.lockStreams [.reader openId]).connectThrew generation code)
  | .reading generation openId, .chunk bytes => some (s.readChunk config generation openId bytes)
  | .reading generation _, .ended => some (s.readEnded generation .DEVICE_DISCONNECTED)
  | .reading generation _, .readFailed code => some (s.readEnded generation code)
  | .stopDraining openId, .done => some (s.stopDrained openId)
  | .stopTeardown closes, .done => if s.hasClosed closes then some (s.wait .stopAnswered) else none
  | .stopAnswered, .done => some s.stopEnd
  | _, _ => none

def finishClose (s : Supervisor) (close : Closing) : Supervisor :=
  { s with closes := KeyedList.erase Closing.id close.id s.closes }

def enterStep (s : Supervisor) (close : Closing) (step : CloseStep) : Supervisor :=
  { s with closes := KeyedList.adjust Closing.id close.id (fun c => { c with step }) s.closes }

def setPhase (s : Supervisor) (openId : OpenId) (phase : OpenPhase) : Supervisor :=
  { s with opens := KeyedList.adjust OpenCall.id openId (fun call => { call with phase }) s.opens }

/-- `releaseLock`. -/
def releaseLock (s : Supervisor) (lock : StreamLock) : Supervisor :=
  { s with locks := s.locks.filter (· ≠ lock) }

def isLocked (s : Supervisor) (openId : OpenId) : Bool :=
  s.locks.any fun lock => lock.openId = openId

/-- One step of a close ends, and `#closeStep` goes on whatever became of it; a `close()` that
settles has closed what was open, and cannot settle while a stream of it is locked. -/
def closeStepEnded (s : Supervisor) (close : Closing) (how : StepEnd) : Option Supervisor :=
  match close.step with
  | .draining => some (s.enterStep close .cancelling)
  | .cancelling => some ((s.releaseLock (.reader close.openId)).enterStep close .aborting)
  | .aborting => some ((s.releaseLock (.writer close.openId)).enterStep close .closing)
  | .waitingForOpen =>
    match how, s.phase? close.openId with
    | .timedOut, _ | .settled, some .opened | .settled, some .closed =>
      some (s.enterStep close .closing)
    | .rejected, some .failed => some (s.finishClose close)
    | _, _ => none
  | .closing =>
    if how = .settled ∧ s.phase? close.openId = some .opened then
      if s.isLocked close.openId then none
      else some ((s.setPhase close.openId .closed).finishClose close)
    else some (s.finishClose close)

/-- The rest of the events, which come while no call is running. -/
def react (s : Supervisor) : SupervisorEvent → Option Supervisor
  | .resume task answer =>
    if task ∈ s.tasks then
      { s with tasks := s.tasks.erase task }.resume config task answer
    else none
  | .timer timer =>
    if timer ∈ s.timers then some (s.clearTimer timer).timerFired else none
  | .receiveTimer => if s.buffered > 0 then some (callback { s with buffered := 0 } .done) else none
  | .writeFailed openId => some (s.writeFailed openId)
  | .deviceConnected => some (s.handleDeviceConnected config)
  | .deviceDisconnected port => some (s.handleDeviceDisconnected config port)
  | .openSettled openId isOpen =>
    if s.phase? openId = some .pending then
      some (s.setPhase openId (if isOpen then .opened else .failed)) else none
  | .closeStep close how =>
    (KeyedList.lookup Closing.id close s.closes).bind fun close => s.closeStepEnded close how
  | .teardownForgotten =>
    match s.teardown with
    | some closes => if s.hasClosed closes then some { s with teardown := none } else none
    | none => none
  | .tick ms => some { s with monotonicNow := s.monotonicNow + ms }
  | .call _ | .returned => none

def step (s : Supervisor) : SupervisorEvent → Option Supervisor
  | .call call => some (s.perform call)
  | .returned =>
    match s.stack with
    | [] => none
    | frame :: stack => some ({ s with stack }.goOn config frame)
  | event => if s.stack = [] then s.react config event else none

end Supervisor

/-- The runs of one supervisor, under any port and any application. -/
def supervisorRuns (config : ConnectionConfig) : TransitionSystem Supervisor SupervisorEvent :=
  ⟨.init, Supervisor.step config⟩

namespace Supervisor

/-- Where a method goes on without looking, the supervisor is as it left it: after the error
callback of a loss or of a refused listing, after the data callback of `followDevice`, and where
`#connect` goes on with a port found or opened. -/
def isUndisturbed (s : Supervisor) : SupervisorEvent → Bool
  | .returned =>
    match s.stack with
    | .lossReported previous _ left :: _ | .followFlushed previous left :: _ =>
      s.state = previous ∧ s.generation = left
    | .listingReported left :: _ => s.state = .listing ∧ s.generation = left
    | _ => true
  | .resume (.foundPort generation _) _ | .resume (.openedPort generation _ _) (.streams _) =>
    s.isStale generation = false
  | _ => true

/-- No step of a close runs out of time. -/
def isInTime : SupervisorEvent → Bool
  | .closeStep _ how => how ≠ .timedOut
  | _ => true

/-- `close()` of a port refuses only what is not open or has a locked stream. -/
def refusesLockedOnly (s : Supervisor) : SupervisorEvent → Bool
  | .closeStep close .rejected =>
    (KeyedList.lookup Closing.id close s.closes).all fun close =>
      close.step = .closing → s.phase? close.openId = some .opened → s.isLocked close.openId
  | _ => true

/-- An attempt that has taken the reader of a port takes the writer too. -/
def takesBothStreams : SupervisorEvent → Bool
  | .resume _ (.writerThrew _) => false
  | _ => true

/-! ### what the methods share -/

variable {config : ConnectionConfig} {s : Supervisor}

/-- Begins to close what the state that is left has open. -/
def closeLost (s : Supervisor) (previous : ConnectionState) (step : CloseStep) : Supervisor :=
  match previous with
  | .open _ openId => s.trackTeardown openId step
  | .opening _ openId => s.trackTeardown openId .waitingForOpen
  | _ => s

theorem afterLoss_giveUp (previous : ConnectionState) :
    s.afterLoss config previous .giveUp = (s.closeLost previous .cancelling).giveUp := by
  cases previous <;> rfl

theorem afterLoss_retry (previous : ConnectionState) :
    s.afterLoss config previous .retry =
      (s.closeLost previous .cancelling).recordFailedAttempt config := by
  cases previous <;> rfl

theorem followNow_eq (previous : ConnectionState) :
    s.followNow previous = ({ s.closeLost previous .draining with
    backoff := .reset
    state := .idle } : Supervisor).connect := by
  cases previous <;> rfl

/-- What an attempt that begins does, but for what it goes on with. -/
theorem connect_effect (hstate : s.state ≠ .stopped) :
    s.connect.backoff = s.backoff.recordAttempt ∧ s.connect.state = .listing ∧
    s.connect.reports = s.reports ∧ s.connect.generation = s.generation + 1 ∧
    (s.connect.stack = s.stack ∨ s.connect.stack = .connecting (s.generation + 1) :: s.stack) := by
  unfold Supervisor.connect
  rw [if_neg hstate]
  dsimp only
  split
  · unfold Supervisor.findPort
    split
    · exact ⟨rfl, rfl, rfl, rfl, Or.inl rfl⟩
    · exact ⟨rfl, rfl, rfl, rfl, Or.inl rfl⟩
  · exact ⟨rfl, rfl, rfl, rfl, Or.inr rfl⟩

theorem setStatus_state (status : SerialBrokerStatus) : (s.setStatus status).state = s.state := by
  unfold Supervisor.setStatus
  split
  · rfl
  · rfl

variable (config s) in
/-- A failed attempt ends in a backoff delay, or in `failed` where none is left. -/
theorem recordFailedAttempt_state : (s.recordFailedAttempt config).state =
    if config.autoReconnect = false ∨
        (s.backoff.recordDisconnected s.monotonicNow config.stableAfterMs).hasExhausted
          config.maxAttempts = true
      then .failed else .reconnecting s.nextTimer := by
  unfold Supervisor.recordFailedAttempt
  by_cases hreconnects : config.autoReconnect = false
  · rw [if_pos hreconnects, if_pos (Or.inl hreconnects)]
    exact setStatus_state _
  rw [if_neg hreconnects]
  dsimp only
  by_cases hexhausted :
    (s.backoff.recordDisconnected s.monotonicNow config.stableAfterMs).hasExhausted
    config.maxAttempts = true
  · rw [if_pos hexhausted, if_pos (Or.inr hexhausted)]
    split
    · rfl
    · rfl
  · rw [if_neg hexhausted, if_neg (not_or.mpr ⟨hreconnects, hexhausted⟩)]
    exact setStatus_state _

/-- A step of a close that ends concerns the port and the closes only. -/
theorem closeStepEnded_eq {s' : Supervisor} {close : Closing} {how : StepEnd}
    (hended : s.closeStepEnded close how = some s') :
    ∃ opens locks closes, s' = { s with opens, locks, closes } := by
  unfold Supervisor.closeStepEnded at hended
  split at hended
  · exact ⟨_, _, _, (Option.some.inj hended).symm⟩
  · exact ⟨_, _, _, (Option.some.inj hended).symm⟩
  · exact ⟨_, _, _, (Option.some.inj hended).symm⟩
  · split at hended
    · exact ⟨_, _, _, (Option.some.inj hended).symm⟩
    · exact ⟨_, _, _, (Option.some.inj hended).symm⟩
    · exact ⟨_, _, _, (Option.some.inj hended).symm⟩
    · exact ⟨_, _, _, (Option.some.inj hended).symm⟩
    · exact nomatch hended
  · split at hended
    · exact ⟨_, _, _, (Option.some.inj (Option.ite_none_left_eq_some.mp hended).2).symm⟩
    · exact ⟨_, _, _, (Option.some.inj hended).symm⟩

/-- A report of a loss leaves the state to what follows the report. -/
theorem handleConnectionLoss_state (code : SerialBrokerErrorCode) (next : AfterLoss) :
    (s.handleConnectionLoss code next).state = s.state := by
  unfold Supervisor.handleConnectionLoss
  split
  · rfl
  · rfl
  · split
    · rfl
    · rfl
  · rfl

end Supervisor

end SerialBroker
