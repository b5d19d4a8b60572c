import SerialBroker.Owner.PortSupervisor

/-!
# The writes of one supervisor, chunk by chunk

`PortSupervisor.#write` and `#awaitStalledWrite` of `owner/port-supervisor.ts` over the `WriteQueue`
of `owner/write-queue.ts`. A job runs until it waits: for the answer whether it may begin, for a
chunk and its deadline, for a chunk that has outlived it. Each continuation is an event of its own
(`goOn`, `finish`, `startNext`), because a promise that settles is heard a microtask later. What the
rest of the supervisor does to the connection comes as `enterState`, a chunk that fails as an entry
in `losses`, and `stop()` as `stopWaiting` and the states it enters.

`calls` records every call of `writer.write` and what became of it, and `writes` keeps the writes
that have been answered; no method reads either.
-/

namespace SerialBroker

abbrev WriteId := Nat
abbrev ChunkId := Nat

/-- What the write path reads of its configuration; validation asks for a chunk of at least one
byte. -/
structure WriterConfig where
  writeTimeoutMs : Nat
  maxWriteChunkBytes : Nat
  chunkBytes_pos : 0 < maxWriteChunkBytes

/-- What a write is answered with; `threw` is whatever `writer.write` itself threw. -/
inductive WriteAnswer
  | done
  | failed (error : SerialBrokerError)
  | threw
  deriving DecidableEq

/-- What became of a call of `writer.write`. -/
inductive ChunkOutcome
  | taken | rejected | threw
  deriving DecidableEq

/-- A call of `writer.write` on the connection an `open()` made, and whether its deadline passed
before it settled. -/
structure ChunkCall where
  id : ChunkId
  openId : OpenId
  write : WriteId
  bytes : Payload
  outcome : Option ChunkOutcome
  isLate : Bool
  deriving DecidableEq

/-- The device took the chunk within its deadline. -/
def ChunkCall.IsTaken (call : ChunkCall) : Prop := call.outcome = some .taken ∧ call.isLate = false

instance (call : ChunkCall) : Decidable call.IsTaken := inferInstanceAs (Decidable (_ ∧ _))

/-- Which of the two that `withDeadline` races came first. -/
inductive ChunkResult
  | taken | rejected | timedOut
  deriving DecidableEq

/-- What ended the wait for a chunk that had outlived its deadline. -/
inductive StallResult
  | taken | rejected | ended
  deriving DecidableEq

/-- How far a job has got. -/
inductive JobPhase
  | asking (withinMs : Nat)
  | awaitingAnswer (due : Nat)
  | answered (isApproved : Bool)
  | writing (openId : OpenId) (bytesWritten : Nat) (chunk : ChunkId) (due : Nat)
  | settled (openId : OpenId) (bytesWritten : Nat) (chunk : ChunkId) (result : ChunkResult)
  | stalled (openId : OpenId) (chunk : ChunkId)
  | unstalled (openId : OpenId) (chunk : ChunkId) (result : StallResult)
  | ended
  deriving DecidableEq

/-- A call of `write`. -/
structure PortWrite where
  id : WriteId
  payload : Payload
  queuedAt : Nat
  /-- When the timer runs out that takes it out of the queue, while there is one. -/
  expiry : Option Nat
  answer : Option WriteAnswer
  deriving DecidableEq

/-- Only the first of what settles a promise counts; the timer of a write that is answered is
cleared. -/
def PortWrite.settle (w : PortWrite) (answer : WriteAnswer) : PortWrite :=
  { w with expiry := none, answer := some (w.answer.getD answer) }

def PortWrite.clearExpiry (w : PortWrite) : PortWrite := { w with expiry := none }

structure WritingJob where
  write : WriteId
  phase : JobPhase
  deriving DecidableEq

structure PortWriter where
  state : ConnectionState
  /-- The chunk whose wait `#connectionEnded` ends. -/
  connectionEnded : Option ChunkId
  writes : List PortWrite
  waiting : List WriteId
  running : Option WritingJob
  isStartScheduled : Bool
  calls : List ChunkCall
  bytesSent : Nat
  /-- The connections a failed chunk has reported lost. -/
  losses : List OpenId
  nextOpen : OpenId
  monotonicNow : Nat
  deriving DecidableEq

namespace PortWriter

def init : PortWriter :=
  { state := .idle, connectionEnded := none, writes := [], waiting := [], running := none,
    isStartScheduled := false,
    calls := [], bytesSent := 0, losses := [], nextOpen := 0, monotonicNow := 0 }

/-- `#notBegun`: nothing of the write was written. -/
def notBegun : WriteAnswer := .failed ⟨.WRITE_TIMEOUT, some false, none⟩

/-- What `#openConnection` throws when no port is open. -/
def notConnected : WriteAnswer := .failed ⟨.NOT_CONNECTED, none, none⟩

def timedOut (bytesWritten : Nat) : WriteAnswer := .failed ⟨.WRITE_TIMEOUT, none, some bytesWritten⟩

def writeFailed (bytesWritten : Nat) : WriteAnswer :=
  .failed ⟨.WRITE_FAILED, none, some bytesWritten⟩

/-- The calls of `writer.write` for one write. -/
def callsOf (s : PortWriter) (write : WriteId) : List ChunkCall :=
  s.calls.filter fun call => call.write = write

def write? (s : PortWriter) (write : WriteId) : Option PortWrite :=
  KeyedList.lookup PortWrite.id write s.writes

def call? (s : PortWriter) (chunk : ChunkId) : Option ChunkCall :=
  KeyedList.lookup ChunkCall.id chunk s.calls

/-! ### the queue -/

/-- The promise the caller of `write` waits for settles. -/
def answer (s : PortWriter) (id : WriteId) (answer : WriteAnswer) : PortWriter :=
  { s with writes := KeyedList.adjust PortWrite.id id (fun w => w.settle answer) s.writes }

def clearExpiry (s : PortWriter) (id : WriteId) : PortWriter :=
  { s with writes := KeyedList.adjust PortWrite.id id PortWrite.clearExpiry s.writes }

/-- The job's promise settles; the queue hears of it a microtask later. -/
def endJob (s : PortWriter) (id : WriteId) (answer : WriteAnswer) : PortWriter :=
  { s.answer id answer with running := some ⟨id, .ended⟩ }

def wait (s : PortWriter) (id : WriteId) (phase : JobPhase) : PortWriter :=
  { s with running := some ⟨id, phase⟩ }

/-- The connection `#openConnection` returns. -/
def openConnection (s : PortWriter) : Option OpenId :=
  match s.state with
  | .open _ openId => some openId
  | _ => none

variable (config : WriterConfig)

/-- A job begins: its expiry timer is cleared, and it is asked about if it is in time and the port
is open. -/
def startJob (s : PortWriter) (w : PortWrite) : PortWriter :=
  let s := s.clearExpiry w.id
  if s.monotonicNow - w.queuedAt ≥ config.writeTimeoutMs then s.endJob w.id notBegun
  else match s.openConnection with
    | none => s.endJob w.id notConnected
    | some _ => s.wait w.id (.asking (w.queuedAt + config.writeTimeoutMs - s.monotonicNow))

/-- `#startNext`. -/
def startNext (s : PortWriter) : PortWriter :=
  match s.running, s.waiting with
  | none, id :: waiting =>
    match s.write? id with
    | some w => { s with waiting }.startJob config w
    | none => s
  | _, _ => s

/-- `write`: the job goes to the end of the queue, and the timer is set that takes it out again. -/
def write (s : PortWriter) (payload : Payload) : PortWriter :=
  { s with
    writes := s.writes ++
      [⟨s.writes.length, payload, s.monotonicNow,
      some (s.monotonicNow + config.writeTimeoutMs), none⟩]
    waiting := s.waiting ++ [s.writes.length]
    isStartScheduled := s.isStartScheduled || s.running.isNone }

/-- `withdraw`, when the expiry timer fires: a job that has begun runs to its own end. -/
def expire (s : PortWriter) (id : WriteId) : PortWriter :=
  if id ∈ s.waiting then
    { s with waiting := s.waiting.erase id }.answer id notBegun
  else s.clearExpiry id

/-- The queue hears that the running job has ended, and starts the next. -/
def finish (s : PortWriter) : PortWriter := { s with running := none }.startNext config

/-! ### the chunk loop -/

/-- The call of `writer.write`. -/
def callWriter (s : PortWriter) (id : WriteId) (openId : OpenId) (bytes : Payload)
    (outcome : Option ChunkOutcome) : PortWriter :=
  { s with calls := s.calls ++ [⟨s.calls.length, openId, id, bytes, outcome, false⟩] }

/-- One round of the loop: the wait for the chunk begins, unless the call throws. -/
def writeChunk (s : PortWriter) (w : PortWrite) (openId : OpenId) (bytesWritten : Nat)
    (isThrown : Bool) : PortWriter :=
  let bytes := (w.payload.drop bytesWritten).take config.maxWriteChunkBytes
  if isThrown then (s.callWriter w.id openId bytes (some .threw)).endJob w.id .threw
  else
    (s.callWriter w.id openId bytes none).wait w.id
      (.writing openId bytesWritten s.calls.length (s.monotonicNow + config.writeTimeoutMs))

/-- The job goes on with the answer whether it may begin. -/
def begin (s : PortWriter) (w : PortWrite) (isApproved isThrown : Bool) : PortWriter :=
  match s.openConnection with
  | none => s.endJob w.id notConnected
  | some openId =>
    if isApproved then s.writeChunk config w openId 0 isThrown else s.endJob w.id notBegun

/-- `#handleConnectionLoss` for a chunk that failed, while its connection is the one now open. -/
def loseConnection (s : PortWriter) (openId : OpenId) : PortWriter :=
  if s.openConnection = some openId then { s with losses := s.losses ++ [openId] } else s

/-- The loop goes on with a chunk that was taken. -/
def chunkTaken (s : PortWriter) (w : PortWrite) (openId : OpenId) (bytesWritten : Nat)
    (call : ChunkCall) (isThrown : Bool) :
    PortWriter :=
  let bytesWritten := bytesWritten + call.bytes.length
  let s := { s with bytesSent := s.bytesSent + call.bytes.length }
  if bytesWritten < w.payload.length then s.writeChunk config w openId bytesWritten isThrown
    else s.endJob w.id .done

/-- `#awaitStalledWrite` until it waits; a chunk that has settled meanwhile ends the wait at
once. -/
def awaitStalledWrite (s : PortWriter) (w : PortWrite) (openId : OpenId) (call : ChunkCall) :
    PortWriter :=
  let s := { s with connectionEnded := some call.id }
  match call.outcome with
  | none => s.wait w.id (.stalled openId call.id)
  | some .taken => s.wait w.id (.unstalled openId call.id .taken)
  | some _ => s.wait w.id (.unstalled openId call.id .rejected)

/-- `#awaitStalledWrite` goes on, and with it the job ends. -/
def stallEnded (s : PortWriter) (w : PortWrite) (openId : OpenId) (call : ChunkCall)
    (result : StallResult) : PortWriter :=
  let s := { s with connectionEnded := none }
  match result with
  | .taken => { s with bytesSent := s.bytesSent + call.bytes.length }.endJob w.id .done
  | .ended => s.endJob w.id .done
  | .rejected => (s.loseConnection openId).endJob w.id .done

/-- The running job goes on after what it waited for; `isThrown` says whether a chunk it writes
throws. -/
def goOn (s : PortWriter) (isThrown : Bool) : Option PortWriter :=
  match s.running with
  | some ⟨id, .answered isApproved⟩ =>
    (s.write? id).map fun w => s.begin config w isApproved isThrown
  | some ⟨id, .settled openId bytesWritten chunk result⟩ =>
    match s.write? id, s.call? chunk with
    | some w, some call => some <| match result with
      | .taken => s.chunkTaken config w openId bytesWritten call isThrown
      | .rejected => (s.loseConnection openId).endJob id (writeFailed bytesWritten)
      | .timedOut => (s.answer id (timedOut bytesWritten)).awaitStalledWrite w openId call
    | _, _ => none
  | some ⟨id, .unstalled openId chunk result⟩ =>
    match s.write? id, s.call? chunk with
    | some w, some call => some (s.stallEnded w openId call result)
    | _, _ => none
  | _ => none

/-! ### what happens to a writer -/

/-- `#enterState`; a state entered is always a new object. -/
def enterState (s : PortWriter) (next : ConnectionState) : PortWriter :=
  let s' := { s with
    state := next
    nextOpen := match next with
      | .open _ openId => openId + 1
      | _ => s.nextOpen }
  match s.openConnection, s.connectionEnded, s.running with
  | some _, some chunk, some ⟨id, .stalled openId awaited⟩ =>
    { s' with
      connectionEnded := none
      running := some ⟨id, if awaited = chunk then .unstalled openId awaited .ended
        else .stalled openId awaited⟩ }
  | some _, some _, _ => { s' with connectionEnded := none }
  | _, _, _ => s'

/-- The running job hears of a chunk that settled. -/
def hear (chunk : ChunkId) (isTaken : Bool) : JobPhase → JobPhase
  | .writing openId bytesWritten awaited due =>
    if awaited = chunk then
      .settled openId bytesWritten awaited (if isTaken then .taken else .rejected)
    else .writing openId bytesWritten awaited due
  | .stalled openId awaited =>
    if awaited = chunk then .unstalled openId awaited (if isTaken then .taken else .rejected)
      else .stalled openId awaited
  | phase => phase

/-- The promise of `writer.write` settles. -/
def settle (s : PortWriter) (chunk : ChunkId) (isTaken : Bool) : PortWriter :=
  { s with
    calls := KeyedList.adjust ChunkCall.id chunk
      (fun call => { call with outcome := some (if isTaken then .taken else .rejected) }) s.calls
    running := s.running.map fun job => { job with phase := hear chunk isTaken job.phase } }

/-- The deadline of the chunk passes. -/
def passDeadline (s : PortWriter) (id : WriteId) (openId : OpenId) (bytesWritten : Nat)
    (chunk : ChunkId) : PortWriter :=
  { s with
    calls := KeyedList.adjust ChunkCall.id chunk (fun call => { call with isLate := true }) s.calls
    running := some ⟨id, .settled openId bytesWritten chunk .timedOut⟩ }

end PortWriter

/-- What happens to the writes of a supervisor. -/
inductive WriterEvent
  | write (payload : Payload)
  | expiryTimer (write : WriteId)
  | startNext
  | mayBegin (answer : Option Bool) (isThrown : Bool)
  | answer (isApproved : Bool)
  | answerTimer
  | stopWaiting
  | goOn (isThrown : Bool)
  | settle (chunk : ChunkId) (isTaken : Bool)
  | deadline
  | finish
  | enterState (next : ConnectionState)
  | tick (ms : Nat)
  deriving DecidableEq

namespace PortWriter

variable (config : WriterConfig)

/-- Whether a state can be entered now: an open connection is a new one. -/
def canEnter (s : PortWriter) : ConnectionState → Bool
  | .open _ openId => s.nextOpen ≤ openId
  | _ => true

/-- What one event makes of the writes, if it can happen now. -/
def step (s : PortWriter) : WriterEvent → Option PortWriter
  | .write payload => some (s.write config payload)
  | .expiryTimer id =>
    match s.write? id with
    | some ⟨_, _, _, some due, _⟩ => if due ≤ s.monotonicNow then some (s.expire id) else none
    | _ => none
  | .startNext =>
    if s.isStartScheduled then some ({ s with isStartScheduled := false }.startNext config)
    else none
  | .mayBegin answer isThrown =>
    match s.running with
    | some ⟨id, .asking withinMs⟩ =>
      match answer with
      | none => some (s.wait id (.awaitingAnswer (s.monotonicNow + withinMs)))
      | some isApproved => (s.write? id).map fun w => s.begin config w isApproved isThrown
    | _ => none
  | .answer isApproved =>
    match s.running with
    | some ⟨id, .awaitingAnswer _⟩ => some (s.wait id (.answered isApproved))
    | _ => none
  | .answerTimer =>
    match s.running with
    | some ⟨id, .awaitingAnswer due⟩ =>
      if due ≤ s.monotonicNow then some (s.wait id (.answered false)) else none
    | _ => none
  | .stopWaiting =>
    match s.running with
    | some ⟨id, .awaitingAnswer _⟩ => some (s.wait id (.answered false))
    | _ => some s
  | .goOn isThrown => s.goOn config isThrown
  | .settle chunk isTaken =>
    match s.call? chunk with
    | some ⟨_, _, _, _, none, _⟩ => some (s.settle chunk isTaken)
    | _ => none
  | .deadline =>
    match s.running with
    | some ⟨id, .writing openId bytesWritten chunk due⟩ =>
      if due ≤ s.monotonicNow then some (s.passDeadline id openId bytesWritten chunk) else none
    | _ => none
  | .finish =>
    match s.running with
    | some ⟨_, .ended⟩ => some (s.finish config)
    | _ => none
  | .enterState next => if s.canEnter next then some (s.enterState next) else none
  | .tick ms => some { s with monotonicNow := s.monotonicNow + ms }

/-- The runs of the writes of one supervisor. -/
def writerRuns : TransitionSystem PortWriter WriterEvent := ⟨init, step config⟩

end PortWriter

end SerialBroker
