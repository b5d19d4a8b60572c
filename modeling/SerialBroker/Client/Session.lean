import SerialBroker.Client.OwnerTerms
import SerialBroker.Owner.WriteJobs

/-!
# One tab of a configuration

`ConfigurationSession` as `client/configuration-session.ts` computes it, with the election of
`owner/election.ts` on a `HeldLock` and the writes of `client/pending-writes.ts`. Each function
takes the tab to its next state; what it did outside, in order, is in its `outbox`: messages sent,
locks requested or let go, and, for the record, writes begun, chunks taken and outcomes.

A turn that calls the application back stops there: the rest of it is a `TurnFrame`, and while the
callback runs the application may call the tab again. The effects of the terms are run one at a time
for the same reason. The device of a configuration, timestamps, log records and the place of a tab
among `maxTabs` are left out: a tab joins whenever it likes, and restates its status whenever it
likes.
-/

namespace SerialBroker

/-- What a session reads of its configuration. -/
structure TabSettings where
  maxTabs : MaxTabs
  autoReconnect : Bool
  maxWriteChunkBytes : Nat

/-- The settings of a tab, and its id on the bus. -/
structure TabConfig extends TabSettings where
  clientId : ClientId

/-- A write a tab has issued and still waits on. -/
structure PendingWrite where
  requestId : RequestId
  payload : Payload
  startedTerm : Option TermId
  addressedTerm : Option TermId
  isDispatched : Bool
  deriving DecidableEq

/-- How far a tab has got in the election. -/
inductive ElectionPhase
  | off
  | requested
  | paused
  | locking (term : TermId)
  | owner (term : TermId)
  | leaving (term : TermId) (holdsTermLock : Bool)
  | left
  deriving DecidableEq

structure Election where
  phase : ElectionPhase
  isStopped : Bool
  isOwner : Bool
  deriving DecidableEq

/-- What the listeners of this tab hear before the other tabs are told. -/
inductive Announcement
  | received (payload : Payload) (text : Option String)
  | sent (payload : Payload) (originClientId : ClientId)
  | failed (error : SerialBrokerError)
  deriving DecidableEq

def Announcement.body : Announcement → MessageBody
  | .received payload text => .dataReceived payload text
  | .sent payload originClientId => .dataSent payload originClientId
  | .failed error => .error error

/-- The rest of a turn of the tab. -/
inductive TurnFrame
  | effects (effects : List TermEffect)
  | emitted (status : Option SerialBrokerStatus)
  | announcing (announcement : Announcement)
  | takeOwn (term : TermId)
  | withdraw
  deriving DecidableEq

/-- What a tab does outside itself. -/
inductive Action
  | send (message : ProtocolMessage)
  | requestOwnerLock
  | withdrawOwnerRequest
  | requestTermLock (term : TermId)
  | requestGoodbye (term : TermId)
  | check (key : EntryId) (claim : TermClaim)
  | watch (key : EntryId) (claim : TermClaim)
  | abortWatch (key : EntryId)
  | began (key : WriteKey) (term : TermId)
  | chunkTaken (key : WriteKey) (term : TermId) (offset bytes : Nat)
  | settled (requestId : RequestId) (outcome : WriteOutcome)
  deriving DecidableEq

structure Tab where
  isJoined : Bool
  isReleased : Bool
  isWithdrawn : Bool
  status : SerialBrokerStatus
  stack : List TurnFrame
  election : Election
  terms : OwnerTerms
  nextKey : EntryId
  writes : List PendingWrite
  /-- What `send()` was called with; the id of a request is its place. -/
  issued : List Payload
  holder : Option Holder
  outbox : List Action
  deriving DecidableEq

namespace Tab

def init : Tab :=
  { isJoined := false, isReleased := false, isWithdrawn := false, status := .idle, stack := [],
    election := ⟨.off, false, false⟩,
    terms := .empty, nextKey := 0, writes := [], issued := [], holder := none, outbox := [] }

variable (config : TabConfig)

def act (t : Tab) (action : Action) : Tab := { t with outbox := t.outbox ++ [action] }

/-- `transport.send`, with the envelope. -/
def send (t : Tab) (target : MessageTarget) (body : MessageBody) : Tab :=
  t.act (.send ⟨config.clientId, target, body⟩)

def push (t : Tab) (frame : TurnFrame) : Tab := { t with stack := frame :: t.stack }

/-- `#setStatus` until the listeners are called. -/
def setStatus (t : Tab) (status : SerialBrokerStatus) : Tab :=
  if t.status = status ∨ (t.isReleased ∧ status ≠ .released) then t else
    { t with status }.push (.emitted (some status))

/-- `#supervisor` and `#term`, while they are defined. -/
def serving? (t : Tab) : Option Holder := t.holder.filter fun h => h.stage = .serving

def setHolder (t : Tab) (h : Holder) : Tab := { t with holder := some h }

/-- Whether the application may be running: between two turns, or in a callback. -/
def mayBeCalled (t : Tab) : Bool :=
  match t.stack with
  | [] | .emitted _ :: _ | .announcing _ :: _ => true
  | .effects _ :: _ | .takeOwn _ :: _ | .withdraw :: _ => false

/-- Whether the supervisor may be running: where the application may, and while the session starts
it. -/
def mayHearSupervisor (t : Tab) : Bool :=
  match t.stack with
  | .takeOwn _ :: _ => true
  | _ => t.mayBeCalled

/-- Whether the tab has no supervisor to stop, or has stopped it. -/
def hasStoppedHolding (t : Tab) : Bool := t.holder.all fun h => h.stage = .stopped

/-! ### the election -/

/-- `HeldLock.start`. -/
def startElection (t : Tab) : Tab :=
  if t.election.isStopped then t
  else match t.election.phase with
    | .off | .paused =>
      { t with election := { t.election with phase := .requested } }.act .requestOwnerLock
    | _ => t

/-- `election.stop()` until its first `await`. -/
def stopElection (t : Tab) : Tab :=
  if t.election.isStopped then t
  else match t.election.phase with
    | .off | .paused => { t with election := { t.election with phase := .left, isStopped := true } }
    | .requested => { t with
      election := { t.election with phase := .left, isStopped := true } }.act .withdrawOwnerRequest
    | .owner term =>
      { t with election := { t.election with phase := .leaving term true, isStopped := true } }
    | _ => { t with election := { t.election with isStopped := true } }

/-- The ownership lock was granted: the lock of a new term is requested. -/
def ownerGranted (t : Tab) (term : TermId) : Tab :=
  { t with election := { t.election with phase := .locking term } }.act (.requestTermLock term)

/-- The browser refused the request for the ownership lock, or the one for the term's lock under
it. -/
def lockRefused (t : Tab) : Tab :=
  { t with
    election := { t.election with phase := if t.election.isStopped then .left else .paused } }

/-- `#startTerm` until the supervisor is started. -/
def startTerm (t : Tab) (term : TermId) : Tab :=
  let t := t.send config .all (.ownerClaimed term config.maxTabs)
  { t with holder := some (.init term) }.push (.takeOwn term)

/-- The term's lock was granted, under the ownership lock. -/
def termGranted (t : Tab) (term : TermId) : Tab :=
  if t.election.isStopped then
    { t with election := { t.election with phase := .leaving term true } }
  else
    let t := { t with election := { t.election with phase := .owner term, isOwner := true } }
    if t.isReleased then t else t.startTerm config term

/-- The browser has let the term's lock go. -/
def termLetGo (t : Tab) (term : TermId) : Tab :=
  { t with election := { t.election with phase := .leaving term false } }

/-- The browser has let the ownership lock go. -/
def ownerLetGo (t : Tab) : Tab :=
  { t with election := { t.election with phase := .left, isOwner := false } }

/-! ### the writes this tab has issued -/

def pending? (t : Tab) (requestId : RequestId) : Option PendingWrite :=
  KeyedList.lookup PendingWrite.requestId requestId t.writes

def modifyWrite (t : Tab) (requestId : RequestId) (f : PendingWrite → PendingWrite) : Tab :=
  { t with writes := KeyedList.adjust PendingWrite.requestId requestId f t.writes }

def settle (t : Tab) (requestId : RequestId) (outcome : WriteOutcome) : Tab :=
  match t.pending? requestId with
  | none => t
  | some _ =>
    { t with
      writes := KeyedList.erase PendingWrite.requestId requestId t.writes }.act
        (.settled requestId outcome)

def settleAll (t : Tab) (requestIds : List RequestId) (outcome : WriteOutcome) : Tab :=
  requestIds.foldl (fun t requestId => t.settle requestId outcome) t

def failAll (t : Tab) (error : SerialBrokerError) : Tab :=
  t.settleAll (t.writes.map PendingWrite.requestId) (some error)

/-- Whether `term` may begin the write, which counts as begun then. -/
def approve (t : Tab) (requestId : RequestId) (term : TermId) : Tab × Bool :=
  match t.pending? requestId with
  | none => (t, false)
  | some write =>
    if write.addressedTerm ≠ some term then (t, false)
    else (t.modifyWrite requestId fun w =>
      { w with startedTerm := w.startedTerm.or (some term) }, true)

/-- The term `#dispatch` hands the write to, if it hands it on. -/
def dispatchTerm? (t : Tab) (write : PendingWrite) : Option TermId :=
  if write.startedTerm ≠ none ∨ t.status ≠ .open then none
  else match t.terms.current with
    | none => none
    | some term =>
      if write.isDispatched ∧ write.addressedTerm = some term then none
      else match write.addressedTerm with
        | none => some term
        | some addressed =>
          if addressed ≠ term ∧ ¬ t.terms.isEnded addressed then none else some term

/-! ### writes at this tab's port -/

def sendWriteResult (t : Tab) (origin : ClientId) (requestId : RequestId) (term : TermId)
    (outcome : WriteOutcome) : Tab :=
  t.send config (.client origin) (.writeResult requestId outcome.isNone outcome (some term))

/-- `finished` of a write of another tab: the question, if there is one, is over. -/
def finishedForPeer (t : Tab) (h : Holder) (key : WriteKey) (outcome : WriteOutcome) : Tab :=
  (t.setHolder
    { h with awaited := KeyedList.erase AwaitedApproval.key key h.awaited }).sendWriteResult
        config key.origin
    key.requestId h.term outcome

/-- A request that is answered as it arrives. It is never answered `NOT_CONNECTED`, so one of this
tab's own is settled. -/
def answerAtOnce (t : Tab) (h : Holder) (key : WriteKey) (outcome : WriteOutcome) : Tab :=
  if key.origin = config.clientId then t.settle key.requestId outcome
    else t.finishedForPeer config h key outcome

/-- `#performWrite`. -/
def performWrite (t : Tab) (h : Holder) (key : WriteKey) (payload : Payload) : Tab :=
  if h.accepted.isKnown key = false ∧ h.isFull payload.length then
    t.answerAtOnce config h key (some (.plain .WRITE_QUEUE_FULL))
  else match h.accepted.admitWrite key with
    | (_, .inProgress) => t
    | (_, .finished outcome) => t.answerAtOnce config h key outcome
    | (accepted, .new) => t.setHolder ({ h with accepted }.enqueue key payload)

def dispatchWrite (t : Tab) (requestId : RequestId) (payload : Payload) (term : TermId) : Tab :=
  match t.serving? with
  | some h =>
    if t.election.isOwner ∧ term = h.term then
      t.performWrite config h ⟨config.clientId, requestId⟩ payload
    else t.send config .all (.writeRequest requestId payload term)
  | none => t.send config .all (.writeRequest requestId payload term)

/-- `#dispatch`. -/
def dispatch (t : Tab) (requestId : RequestId) : Tab :=
  match t.pending? requestId with
  | none => t
  | some write =>
    match t.dispatchTerm? write with
    | none => t
    | some term =>
      (t.modifyWrite requestId fun w =>
          { w with isDispatched := true, addressedTerm := some term }).dispatchWrite config
        requestId write.payload term

def dispatchAll (t : Tab) (requestIds : List RequestId) : Tab :=
  requestIds.foldl (fun t requestId => t.dispatch config requestId) t

def dispatchWaiting (t : Tab) : Tab := t.dispatchAll config (t.writes.map PendingWrite.requestId)

/-- `PendingWrites.add`. -/
def add (t : Tab) (payload : Payload) : Tab :=
  { t with
    writes := t.writes ++ [PendingWrite.mk t.issued.length payload none none false]
    issued := t.issued ++ [payload] }.dispatch config t.issued.length

def handleResult (t : Tab) (requestId : RequestId) (term : Option TermId) (outcome : WriteOutcome) :
    Tab :=
  match t.pending? requestId with
  | none => t
  | some write =>
    if term = none ∨ term ≠ write.addressedTerm then t
    else if outcome.isNotConnected then
      (t.modifyWrite requestId fun w =>
        { w with startedTerm := none, isDispatched := false }).dispatch config requestId
    else t.settle requestId outcome

def handleTermEnded (t : Tab) (term : TermId) : Tab :=
  let lost := t.writes.filter fun w => w.startedTerm = some term
  (t.settleAll (lost.map PendingWrite.requestId)
    (some (.plain .OWNER_LOST_DURING_WRITE))).dispatchWaiting config

/-- One round of the loop of `resendUnstarted`. -/
def resend (t : Tab) (requestId : RequestId) : Tab :=
  match t.pending? requestId with
  | none => t
  | some write =>
    if write.startedTerm ≠ none then t
    else match write.addressedTerm with
      | none =>
        (t.modifyWrite requestId fun w =>
          { w with isDispatched := false }).dispatch config requestId
      | some addressed =>
        if some addressed = t.terms.current ∨ t.terms.isEnded addressed then
          (t.modifyWrite requestId fun w =>
            { w with isDispatched := false }).dispatch config requestId
        else t

def resendUnstarted (t : Tab) : Tab :=
  (t.writes.map PendingWrite.requestId).foldl (fun t requestId => t.resend config requestId) t

/-- The deadline of a write has run out. -/
def writeDeadline (t : Tab) (requestId : RequestId) : Tab :=
  match t.pending? requestId with
  | none => t
  | some write => t.settle requestId (some ⟨.WRITE_TIMEOUT, some write.startedTerm.isSome, none⟩)

/-! ### the terms -/

/-- Something reached the terms; what they do outside is the rest of the turn. -/
def handleTerms (t : Tab) (input : TermInput) : Tab :=
  let handled := t.terms.handle t.nextKey input
  { t with terms := handled.1, nextKey := t.nextKey + 1 }.push (.effects handled.2)

/-- `#withdraw` until the error is reported. -/
def withdraw (t : Tab) : Tab := ({ t with isWithdrawn := true }.push .withdraw).push (.emitted none)

/-- The rest of `#withdraw`. -/
def withdrawEnd (t : Tab) : Tab :=
  let t := t.failAll (.plain .CONFIGURATION_CONFLICT)
  let disposed := t.terms.dispose
  let t := ({ t with terms := disposed.1 }.stopElection).setStatus .failed
  t.push (.effects disposed.2)

def applyStatus (t : Tab) (status : SerialBrokerStatus) (maxTabs : MaxTabs) : Tab :=
  if t.isReleased ∨ t.isWithdrawn ∨ t.election.isOwner then t
  else if maxTabs ≠ config.maxTabs then t.withdraw
  else if status = .open then (t.resendUnstarted config).setStatus status
  else t.setStatus status

/-- `#takeApproval`. -/
def takeApproval (t : Tab) (key : WriteKey) (term : TermId) (approved : Bool) : Tab :=
  match t.serving? with
  | none => t
  | some h =>
    if h.term ≠ term then t
    else match KeyedList.lookup AwaitedApproval.key key h.awaited with
      | none => t
      | some awaited =>
        let running := match h.running with
          | some ⟨job, .asking question⟩ =>
            some ⟨job, if question = awaited.question then .answered approved else .asking question⟩
          | running => running
        t.setHolder { h with awaited := KeyedList.erase AwaitedApproval.key key h.awaited, running }

def performWriteForPeer (t : Tab) (key : WriteKey) (payload : Payload) (term : TermId) : Tab :=
  match t.serving? with
  | none => t
  | some h => if h.term ≠ term then t else t.performWrite config h key payload

/-- `#apply`: what a believed message does. -/
def apply (t : Tab) (message : ProtocolMessage) : Tab :=
  match message.body with
  | .writeRequest requestId payload term =>
    t.performWriteForPeer config ⟨message.sender, requestId⟩ payload term
  | .writeReady requestId term question =>
    let approved := t.approve requestId term
    approved.1.send config (.client message.sender)
      (.writeApproval requestId term approved.2 question)
  | .writeApproval requestId term approved _ =>
    t.takeApproval ⟨message.sender, requestId⟩ term approved
  | .writeResult requestId ok error term =>
    t.handleResult config requestId term (if ok then none else error)
  | .dataReceived .. | .dataSent .. | .error _ => t.push (.emitted none)
  | .status status maxTabs _ => t.applyStatus config status maxTabs
  | .statusRequest _ | .ownerClaimed .. | .ownerReleased _ => t

/-- `#staysFailed`. -/
def staysFailed (t : Tab) : Bool := t.status = .failed ∧ config.autoReconnect = false

/-- `onEnded` of the terms. -/
def termEnded (t : Tab) (term : TermId) (wasCurrent : Bool) : Tab :=
  let t := t.handleTermEnded config term
  if wasCurrent ∧ ¬ t.election.isOwner ∧ ¬ t.isReleased ∧ ¬ t.staysFailed config then
    t.setStatus .reconnecting
  else t

def runEffect (t : Tab) : TermEffect → Tab
  | .apply message => if t.terms.isDisposed then t else t.apply config message
  | .check key claim => t.act (.check key claim)
  | .watch key claim => t.act (.watch key claim)
  | .abort key => t.act (.abortWatch key)
  | .ended _ term wasCurrent => t.termEnded config term wasCurrent

/-- Goes on with the turn. -/
def goOn (t : Tab) : Option Tab :=
  match t.stack with
  | [] => none
  | .effects [] :: stack => some { t with stack }
  | .effects (effect :: effects) :: stack =>
    some ({ t with stack := .effects effects :: stack }.runEffect config effect)
  | .emitted status :: stack =>
    let t := { t with stack }
    some (if status = some .open then t.dispatchWaiting config else t)
  | .announcing announcement :: stack => some ({ t with stack }.send config .all announcement.body)
  | .takeOwn term :: stack =>
    some ({ t with stack }.handleTerms (.takeOwn ⟨term, config.clientId, config.maxTabs⟩))
  | .withdraw :: stack => some { t with stack }.withdrawEnd

/-! ### what reaches a tab -/

/-- `#join`. -/
def join (t : Tab) : Tab :=
  ({ t with isJoined := true }.send config .all (.statusRequest false)).startElection

/-- `send()`. -/
def sendPayload (t : Tab) (payload : Payload) : Tab :=
  if t.isReleased ∨ t.isWithdrawn then t else t.add config payload

/-- `release()` until the supervisor is stopped. -/
def release (t : Tab) : Tab :=
  let t := { t with isReleased := true }.failAll (.plain .CONFIGURATION_RELEASED)
  match t.serving? with
  | some h => t.setHolder h.stop
  | none => t

/-- `#stopBeingOwner` once the supervisor has stopped. -/
def stopped (t : Tab) (h : Holder) : Tab :=
  let t := t.setHolder { h with stage := .stopped }
  let t := t.act (.requestGoodbye h.term)
  let t := t.send config .all (.ownerReleased h.term)
  t.stopElection.handleTerms (.endOwn h.term)

/-- `release()` once the locks have been let go. -/
def releaseEnd (t : Tab) : Tab := (t.handleTerms .dispose).setStatus .released

def handleMessage (t : Tab) (message : ProtocolMessage) : Tab :=
  let isStale : Bool := match message.body with
    | .ownerClaimed .. | .status .. => t.election.isOwner
    | _ => false
  if t.isReleased ∨ ¬ t.isJoined ∨ t.isWithdrawn ∨ isStale then t
  else t.handleTerms (.message message)

/-- `#broadcastStatus`. -/
def broadcastStatus (t : Tab) (status : SerialBrokerStatus) : Tab :=
  match t.serving? with
  | some h => t.send config .all (.status status config.maxTabs h.term)
  | none => t

/-- `handleBusReconnected`. -/
def busReconnected (t : Tab) : Tab :=
  if t.isReleased ∨ ¬ t.isJoined ∨ t.isWithdrawn then t
  else if t.election.isOwner then t.broadcastStatus config t.status
  else t.send config .all (.statusRequest false)

/-! ### what the port does -/

/-- `onStatus` of the supervisor. -/
def portStatus (t : Tab) (status : SerialBrokerStatus) : Tab :=
  (t.broadcastStatus config status).setStatus status

/-- `onData` of the supervisor. -/
def portData (t : Tab) (payload : Payload) (text : Option String) : Tab :=
  t.push (.announcing (.received payload text))

/-- `onError` of the supervisor. -/
def portError (t : Tab) (error : SerialBrokerError) : Tab := t.push (.announcing (.failed error))

/-- The first chunk of a write goes to the writer. -/
def beginWrite (t : Tab) (h : Holder) (job : Job) (connection : ConnectionId) : Tab :=
  (t.setHolder (h.writeChunk job connection 0)).act (.began job.key h.term)

/-- Begins an approved write, or turns it back where the connection is gone. -/
def goOnWithWrite (t : Tab) (h : Holder) (job : Job) (isApproved : Bool) : Tab :=
  match h.connection with
  | none => t.setHolder (h.endJob job Holder.notConnected)
  | some connection =>
    if isApproved then t.beginWrite h job connection else t.setHolder (h.endJob job Holder.notBegun)

/-- `#askToBegin`: at once for a write of this tab's own. -/
def askToBegin (t : Tab) (h : Holder) (job : Job) : Tab :=
  if job.key.origin = config.clientId then
    let approved := t.approve job.key.requestId h.term
    approved.1.goOnWithWrite h job approved.2
  else
    let question := h.nextQuestion
    let h := { h with
      running := some ⟨job, .asking question⟩
      awaited := KeyedList.put AwaitedApproval.key ⟨job.key, question⟩ h.awaited
      nextQuestion := question + 1 }
    (t.setHolder h).send config (.client job.key.origin)
      (.writeReady job.key.requestId h.term question)

/-- The queue begins its next job. -/
def startJob (t : Tab) (h : Holder) (job : Job) (isExpired : Bool) : Tab :=
  let h := { h with waiting := h.waiting.tail }
  if isExpired then t.setHolder (h.endJob job Holder.notBegun)
  else match h.connection with
    | none => t.setHolder (h.endJob job Holder.notConnected)
    | some _ => t.askToBegin config h job

/-- The answer of a job that has ended: `finished`, and `#announceSent`. -/
def answerJob (t : Tab) (h : Holder) (ended : EndedJob) : Tab :=
  let key := ended.job.key
  let h := { h with
    ended := h.ended.filter fun e => e.job.id ≠ ended.job.id
    accepted := h.accepted.finish key ended.outcome }
  let t := t.setHolder h
  let t := if key.origin = config.clientId then
      t.handleResult config key.requestId (some h.term) ended.outcome
    else t.finishedForPeer config h key ended.outcome
  if ended.outcome = none then t.push (.announcing (.sent ended.job.payload key.origin)) else t

end Tab

/-- What happens at the port of the tab that holds it. -/
inductive PortEvent
  | opened
  | lost
  | status (status : SerialBrokerStatus)
  | data (payload : Payload) (text : Option String)
  | error (error : SerialBrokerError)
  | restated
  | jobStarted (isExpired : Bool)
  | askExpired
  | jobWentOn
  | chunkTaken
  | chunkFailed
  | chunkTimedOut
  | stallEnded (isFailed : Bool)
  | jobExpired (id : JobId)
  | jobReported (id : JobId)
  | tornDown
  | writesAnswered
  | answersGivenUp
  deriving DecidableEq

namespace Tab

variable (config : TabConfig)

/-- What an event at the port does, where it can happen. -/
def portStep (t : Tab) (h : Holder) : PortEvent → Option Tab
  | .opened =>
    if h.stage = .serving ∧ h.connection = none then
      some (t.setHolder { h with
        connection := some h.nextConnection
        nextConnection := h.nextConnection + 1 })
    else none
  | .lost => some (t.setHolder { h with connection := none })
  | .status status => if h.stage = .serving then some (t.portStatus config status) else none
  | .data payload text => if h.stage ≠ .stopped then some (t.portData payload text) else none
  | .error error => if h.stage ≠ .stopped then some (t.portError error) else none
  | .restated => if t.election.isOwner then some (t.broadcastStatus config t.status) else none
  | .jobStarted isExpired =>
    match h.running, h.waiting with
    | none, job :: _ => some (t.startJob config h job isExpired)
    | _, _ => none
  | .askExpired =>
    match h.running with
    | some ⟨job, .asking _⟩ => some (t.setHolder { h with running := some ⟨job, .answered false⟩ })
    | _ => none
  | .jobWentOn =>
    match h.running with
    | some ⟨job, .answered isApproved⟩ => some (t.goOnWithWrite h job isApproved)
    | _ => none
  | .chunkTaken =>
    match h.running with
    | some ⟨job, .writing connection offset⟩ =>
      let bytes := min config.maxWriteChunkBytes (job.payload.length - offset)
      some ((t.act (.chunkTaken job.key h.term offset bytes)).setHolder
        (h.chunkTaken job connection offset bytes))
    | _ => none
  | .chunkFailed =>
    match h.running with
    | some ⟨job, .writing connection offset⟩ =>
      some (t.setHolder
        ((h.endJob job (some ⟨.WRITE_FAILED, none, some offset⟩)).loseConnection connection))
    | _ => none
  | .chunkTimedOut =>
    match h.running with
    | some ⟨job, .writing connection offset⟩ =>
      some (t.setHolder { h.endJob job (some ⟨.WRITE_TIMEOUT, none, some offset⟩) with
        running := some ⟨job, .stalled connection⟩ })
    | _ => none
  | .stallEnded isFailed =>
    match h.running with
    | some ⟨_, .stalled connection⟩ =>
      let h := { h with running := none }
      some (t.setHolder (if isFailed then h.loseConnection connection else h))
    | _ => none
  | .jobExpired id =>
    match KeyedList.lookup Job.id id h.waiting with
    | some job =>
      some (t.setHolder { h with
        waiting := KeyedList.erase Job.id id h.waiting
        ended := h.ended ++ [⟨job, Holder.notBegun⟩] })
    | none => none
  | .jobReported id =>
    match h.ended.find? fun ended => ended.job.id = id with
    | some ended => some (t.answerJob config h ended)
    | none => none
  | .tornDown =>
    if h.stage = .stopping then
      some (t.setHolder { h with
        stage := .answering h.nextDeadline
        nextDeadline := h.nextDeadline + 1 })
    else none
  | .writesAnswered =>
    match h.stage with
    | .answering _ => if h.unanswered = [] then some (t.stopped config h) else none
    | _ => none
  | .answersGivenUp =>
    match h.stage with
    | .answering deadline => if h.hasRunOut deadline then some (t.stopped config h) else none
    | _ => none

end Tab

end SerialBroker
