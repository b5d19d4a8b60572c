import SerialBroker.Client.Session
import SerialBroker.Lib.TransitionSystem
import SerialBroker.Lib.WebLocks

/-!
# All the tabs of a configuration

Any number of tabs, the bus between them and the lock manager under them. The bus keeps the order of
one sender's messages to one receiver, delays any of them and may lose any; the lock manager serves
each lock in order, and its answers come when they like. Everything else is a turn of one tab, and
what the tab did outside in it is then sent, requested or recorded, in order.

A tab that has crashed does nothing more, and has no lock and no request left. A term is the number
of the grant of the ownership lock it began with. The `log` records everything the tabs did.
-/

namespace SerialBroker

/-- A request for a term's lock: the holder's own, the one it says goodbye with, or a watch. -/
inductive TermLockUse
  | own (tab : ClientId)
  | goodbye (tab : ClientId)
  | watch (tab : ClientId) (key : EntryId)
  deriving DecidableEq

def TermLockUse.tab : TermLockUse → ClientId
  | .own tab | .goodbye tab | .watch tab _ => tab

/-- A call of a tab's terms that is on its way to the lock manager. -/
inductive LockCall
  | check (key : EntryId) (claim : TermClaim)
  | watch (key : EntryId) (claim : TermClaim)
  deriving DecidableEq

/-- A check the lock manager has answered. -/
structure LockAnswer where
  key : EntryId
  answer : CheckAnswer
  deriving DecidableEq

/-- A watch that was granted, and what the list of the locks said of a goodbye once it is there. -/
structure LockQuery where
  key : EntryId
  claim : TermClaim
  isEnding : Option Bool
  deriving DecidableEq

/-- Whether a message with this target reaches a context on the bus. -/
def MessageTarget.reaches (sender receiver : ClientId) : MessageTarget → Bool
  | .all => receiver ≠ sender
  | .client id => receiver = id

structure System where
  tabs : ClientId → Tab
  isCrashed : ClientId → Bool
  channel : ClientId → ClientId → List ProtocolMessage
  ownerLock : WebLock ClientId
  termLock : TermClaim → WebLock TermLockUse
  calls : ClientId → List LockCall
  answers : ClientId → List LockAnswer
  queries : ClientId → List LockQuery
  /-- Who was granted the ownership lock, in order; the term of a grant is its place. -/
  granted : List ClientId
  log : List (ClientId × Action)

namespace System

def init : System :=
  { tabs := fun _ => .init, isCrashed := fun _ => false, channel := fun _ _ => [],
    ownerLock := .free, termLock := fun _ => .free,
    calls := fun _ => [], answers := fun _ => [], queries := fun _ => [], granted := [], log := [] }

variable (settings : ClientId → TabSettings)

def config (tab : ClientId) : TabConfig := { settings tab with clientId := tab }

/-- What a tab's term is on every message and lock of it. -/
def ownClaim (tab : ClientId) (term : TermId) : TermClaim := ⟨term, tab, (settings tab).maxTabs⟩

/-- Puts a message in the channels to its receivers. -/
def transmit (s : System) (message : ProtocolMessage) : System :=
  { s with
    channel := fun sender receiver =>
      if sender = message.sender ∧ message.target.reaches sender receiver then
        s.channel sender receiver ++ [message]
      else s.channel sender receiver }

def updateTermLock (s : System) (claim : TermClaim)
    (f : WebLock TermLockUse → WebLock TermLockUse) : System :=
  { s with termLock := Function.update s.termLock claim (f (s.termLock claim)) }

/-- Carries out what a tab did outside. -/
def perform (s : System) (tab : ClientId) (action : Action) : System :=
  let s := { s with log := s.log ++ [(tab, action)] }
  match action with
  | .send message => s.transmit message
  | .requestOwnerLock => { s with ownerLock := s.ownerLock.request ⟨tab, true⟩ }
  | .withdrawOwnerRequest => { s with ownerLock := s.ownerLock.withdraw tab }
  | .requestTermLock term =>
    s.updateTermLock (ownClaim settings tab term) fun lock => lock.request ⟨.own tab, true⟩
  | .requestGoodbye term =>
    s.updateTermLock (ownClaim settings tab term) fun lock => lock.request ⟨.goodbye tab, true⟩
  | .check key claim =>
    { s with calls := Function.update s.calls tab (s.calls tab ++ [.check key claim]) }
  | .watch key claim =>
    { s with calls := Function.update s.calls tab (s.calls tab ++ [.watch key claim]) }
  | .abortWatch key =>
    { s with
      calls := Function.update s.calls tab ((s.calls tab).filter fun call => match call with
        | .watch key' _ => key' ≠ key
        | .check .. => true)
      termLock := fun claim => (s.termLock claim).withdraw (.watch tab key) }
  | .began .. | .chunkTaken .. | .settled .. => s

/-- The tab's next state, with what it did outside carried out. -/
def setTab (s : System) (tab : ClientId) (t : Tab) : System :=
  t.outbox.foldl (fun s action => s.perform settings tab action)
    { s with tabs := Function.update s.tabs tab { t with outbox := [] } }

/-- A turn of a tab that runs nothing. -/
def turn (s : System) (tab : ClientId) (f : Tab → Option Tab) : Option System :=
  if s.isCrashed tab = false ∧ (s.tabs tab).stack = [] then (f (s.tabs tab)).map fun t =>
    s.setTab settings tab t else none

/-- A call of the application, which may come from a callback. -/
def callback (s : System) (tab : ClientId) (f : Tab → Tab) : Option System :=
  if s.isCrashed tab = false ∧ (s.tabs tab).mayBeCalled then
    some (s.setTab settings tab (f (s.tabs tab)))
  else none

/-- What the supervisor tells its session, also from a call of the application or while it
starts. -/
def supervisorCallback (s : System) (tab : ClientId) (f : Tab → Option Tab) : Option System :=
  if s.isCrashed tab = false ∧ (s.tabs tab).mayHearSupervisor then (f (s.tabs tab)).map fun t =>
    s.setTab settings tab t else none

/-- A tab dies: the browser lets go of its locks and forgets its requests. -/
def crash (s : System) (tab : ClientId) : System :=
  { s with
    isCrashed := Function.update s.isCrashed tab true
    ownerLock := s.ownerLock.drop fun id => id = tab
    termLock := fun claim => (s.termLock claim).drop fun use => use.tab = tab
    calls := Function.update s.calls tab []
    answers := Function.update s.answers tab []
    queries := Function.update s.queries tab [] }

/-- The answer to a check that asks for the lock only if it is available. -/
def checkLock (s : System) (claim : TermClaim) : CheckAnswer :=
  if (s.termLock claim).isAvailable then .free else .held

/-- Whether an exclusive request is queued on the term's lock. -/
def isEndingCleanly (s : System) (claim : TermClaim) : Bool :=
  (s.termLock claim).queue.any LockRequest.isExclusive

end System

/-- Everything that can happen. -/
inductive SystemEvent
  | join (tab : ClientId)
  | send (tab : ClientId) (payload : Payload)
  | release (tab : ClientId)
  | retry (tab : ClientId)
  | crash (tab : ClientId)
  | goOn (tab : ClientId)
  | writeDeadline (tab : ClientId) (requestId : RequestId)
  | port (tab : ClientId) (event : PortEvent)
  | ownerGranted (tab : ClientId)
  | ownerRefused (tab : ClientId)
  | electionRetried (tab : ClientId)
  | termGranted (tab : ClientId)
  | termRefused (tab : ClientId)
  | electionStopped (tab : ClientId)
  | termLetGo (tab : ClientId)
  | ownerLetGo (tab : ClientId)
  | releaseEnded (tab : ClientId)
  | lockCalled (tab : ClientId) (call : LockCall)
  | checkRefused (tab : ClientId) (key : EntryId) (claim : TermClaim)
  | checkAnswered (tab : ClientId) (answer : LockAnswer)
  | watchGranted (tab : ClientId) (key : EntryId) (claim : TermClaim)
  | locksListed (tab : ClientId) (key : EntryId) (claim : TermClaim)
  | listingFailed (tab : ClientId) (key : EntryId) (claim : TermClaim)
  | watchAnswered (tab : ClientId) (key : EntryId) (claim : TermClaim) (isEnding : Bool)
  | goodbyeGranted (tab : ClientId) (term : TermId)
  | deliver (sender receiver : ClientId)
  | lose (sender receiver : ClientId) (index : Nat)
  | busReconnected (tab : ClientId)
  deriving DecidableEq

namespace System

variable (settings : ClientId → TabSettings)

/-- Replaces one thing on its way by what it has become. -/
def replaceOne {α : Type} [DecidableEq α] (l : List α) (a b : α) : List α :=
  l.map fun x => if x = a then b else x

/-- A granted watch has heard of the locks. -/
def answerQuery (s : System) (tab : ClientId) (key : EntryId) (claim : TermClaim)
    (isEnding : Bool) : Option System :=
  if ⟨key, claim, none⟩ ∈ s.queries tab then
    some { s with
      queries := Function.update s.queries tab
        (replaceOne (s.queries tab) ⟨key, claim, none⟩ ⟨key, claim, some isEnding⟩) }
  else none

def step (s : System) : SystemEvent → Option System
  | .join tab =>
    s.turn settings tab fun t =>
      if t.isJoined ∨ t.isReleased then none else some (t.join (config settings tab))
  | .send tab payload =>
    s.callback settings tab fun t => t.sendPayload (config settings tab) payload
  | .release tab => s.callback settings tab fun t => if t.isReleased then t else t.release
  | .retry tab =>
    s.callback settings tab fun t =>
      if t.isWithdrawn ∨ ¬ t.isJoined then t
      else t.send (config settings tab) .all (.statusRequest true)
  | .crash tab => if s.isCrashed tab then none else some (s.crash tab)
  | .goOn tab =>
    if s.isCrashed tab then none else ((s.tabs tab).goOn (config settings tab)).map fun t =>
      s.setTab settings tab t
  | .writeDeadline tab requestId => s.turn settings tab fun t => some (t.writeDeadline requestId)
  | .port tab event =>
    let f : Tab → Option Tab :=
      fun t => t.holder.bind fun h => t.portStep (config settings tab) h event
    match event with
    | .status _ | .data .. | .error _ => s.supervisorCallback settings tab f
    | _ => s.turn settings tab f
  | .ownerGranted tab =>
    if (s.tabs tab).election.phase = .requested then
      (s.ownerLock.grant tab).bind fun lock =>
        { s with ownerLock := lock, granted := s.granted ++ [tab] }.turn settings tab fun t =>
          some (t.ownerGranted s.granted.length)
    else none
  | .ownerRefused tab =>
    if (s.tabs tab).election.phase = .requested then
      { s with ownerLock := s.ownerLock.withdraw tab }.turn settings tab fun t => some t.lockRefused
    else none
  | .electionRetried tab =>
    s.turn settings tab fun t => if t.election.phase = .paused then some t.startElection else none
  | .termGranted tab =>
    match (s.tabs tab).election.phase with
    | .locking term =>
      ((s.termLock (ownClaim settings tab term)).grant (.own tab)).bind fun lock =>
        (s.updateTermLock (ownClaim settings tab term) fun _ => lock).turn settings tab fun t =>
          some (t.termGranted (config settings tab) term)
    | _ => none
  | .termRefused tab =>
    match (s.tabs tab).election.phase with
    | .locking term =>
      { s.updateTermLock (ownClaim settings tab term) fun lock => lock.withdraw (.own tab) with
        ownerLock := s.ownerLock.letGo tab }.turn settings tab fun t => some t.lockRefused
    | _ => none
  | .electionStopped tab =>
    s.turn settings tab fun t =>
      if t.isReleased ∧ t.hasStoppedHolding then some t.stopElection else none
  | .termLetGo tab =>
    match (s.tabs tab).election.phase with
    | .leaving term true =>
      (s.updateTermLock (ownClaim settings tab term) fun lock => lock.letGo (.own tab)).turn
          settings tab fun t =>
        some (t.termLetGo term)
    | _ => none
  | .ownerLetGo tab =>
    match (s.tabs tab).election.phase with
    | .leaving _ false =>
      { s with ownerLock := s.ownerLock.letGo tab }.turn settings tab fun t => some t.ownerLetGo
    | _ => none
  | .releaseEnded tab =>
    s.turn settings tab fun t =>
      if t.isReleased ∧ t.status ≠ .released ∧ t.election.phase = .left then some t.releaseEnd
      else none
  | .lockCalled tab call =>
    if call ∈ s.calls tab then
      let s := { s with calls := Function.update s.calls tab ((s.calls tab).erase call) }
      match call with
      | .check key claim =>
        some { s with
          answers := Function.update s.answers tab (s.answers tab ++ [⟨key, s.checkLock claim⟩]) }
      | .watch key claim =>
        some (s.updateTermLock claim fun lock => lock.request ⟨.watch tab key, false⟩)
    else none
  | .checkRefused tab key claim =>
    if .check key claim ∈ s.calls tab then
      some { s with
        calls := Function.update s.calls tab ((s.calls tab).erase (.check key claim))
        answers := Function.update s.answers tab (s.answers tab ++ [⟨key, .unknown⟩]) }
    else none
  | .checkAnswered tab answer =>
    if answer ∈ s.answers tab then
      { s with
          answers := Function.update s.answers tab ((s.answers tab).erase answer) }.turn
            settings tab fun t =>
        some (t.handleTerms (.checkAnswered answer.key answer.answer))
    else none
  | .watchGranted tab key claim =>
    if s.isCrashed tab then none
    else ((s.termLock claim).grant (.watch tab key)).map fun lock =>
      { s.updateTermLock claim fun _ => lock with
        queries := Function.update s.queries tab (s.queries tab ++ [⟨key, claim, none⟩]) }
  | .locksListed tab key claim => s.answerQuery tab key claim (s.isEndingCleanly claim)
  | .listingFailed tab key claim => s.answerQuery tab key claim false
  | .watchAnswered tab key claim isEnding =>
    if ⟨key, claim, some isEnding⟩ ∈ s.queries tab then
      { s.updateTermLock claim fun lock => lock.letGo (.watch tab key) with
        queries := Function.update s.queries tab
          ((s.queries tab).erase ⟨key, claim, some isEnding⟩) }.turn settings tab fun t =>
          some (t.handleTerms (.watchAnswered key isEnding))
    else none
  | .goodbyeGranted tab term =>
    ((s.termLock (ownClaim settings tab term)).grant (.goodbye tab)).map fun lock =>
      s.updateTermLock (ownClaim settings tab term) fun _ => lock.letGo (.goodbye tab)
  | .deliver sender receiver =>
    match s.channel sender receiver with
    | [] => none
    | message :: rest =>
      { s with
          channel := Function.update s.channel sender
            (Function.update (s.channel sender) receiver rest) }.turn settings
        receiver fun t => some (t.handleMessage message)
  | .lose sender receiver index =>
    if index < (s.channel sender receiver).length then
      some { s with
        channel := Function.update s.channel sender
          (Function.update (s.channel sender) receiver
            ((s.channel sender receiver).eraseIdx index)) }
    else none
  | .busReconnected tab =>
    s.turn settings tab fun t => some (t.busReconnected (config settings tab))

end System

/-- The runs of any number of tabs with these settings. -/
def systemRuns (settings : ClientId → TabSettings) : TransitionSystem System SystemEvent :=
  ⟨.init, System.step settings⟩

end SerialBroker
