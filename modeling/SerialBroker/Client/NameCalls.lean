import SerialBroker.Lib.KeyedList
import SerialBroker.Lib.TransitionSystem

/-!
# Setting one name up and releasing it

`SerialBrokerClient` of `client/serial-broker-client.ts`, as far as the calls for one configuration
name go: `setup()`, `release()`, `releaseAll()` and `dispose()`, with what they leave in
`#sessions`, `#releasing` and `#setUpDuringRelease`, and of a session its `start()` and `release()`
of `client/configuration-session.ts` as far as the bus sees them. A call that waits is kept with
what it waits for; the promise of a call is pending while the call is. Calls go on in any order,
which allows every order of the browser's. What they wait for outside the client, such as a port
that closes, may take any time.

A listener may call the client while a new session is being remembered. Until it returns nothing
else can go on, and the names it comes from are in `remembering`. The other configurations of the
client are in `isFirst` only: whether `releaseAll()` and `dispose()` reach this name at once.
-/

namespace SerialBroker

abbrev SessionId := Nat
abbrev CallId := Nat

/-- What a call of `setup()` brings: whether there is a tab limit, and whether the environment
supports the library. -/
structure SetupCall where
  isLimited : Bool
  isSupported : Bool
  deriving DecidableEq

structure ReleaseOptions where
  forget : Bool
  forgetDevice : Bool
  deriving DecidableEq

/-- A session of the name, as far as the bus sees it. -/
structure NamedSession where
  id : SessionId
  isLimited : Bool
  isStarted : Bool
  isJoined : Bool
  isReleased : Bool
  /-- `release()` of the session has completed. -/
  isOver : Bool
  deriving DecidableEq

/-- Started, and not completely released. -/
def NamedSession.isActive (session : NamedSession) : Bool := session.isStarted && !session.isOver

/-- How far `#finishRelease` has got. -/
inductive FinishStage
  | lettingGo | closing | closed | forgettingDevice
  deriving DecidableEq

/-- How far `dispose()` has got. -/
inductive DisposeStage
  | others
  | closing (session : SessionId)
  | clearing
  | holds
  | awaiting (releasing : Option CallId)
  deriving DecidableEq

/-- The rest of a call. -/
inductive ClientCall
  | setup (call : SetupCall) (releasing : CallId)
  | finishRelease (session : SessionId) (options : ReleaseOptions) (stage : FinishStage)
  | release (releasing : CallId)
  | releaseAgain (options : ReleaseOptions) (releasing : Option CallId)
  | forgetAsAsked (options : ReleaseOptions) (releasing : Option CallId)
  | releaseAll (options : ReleaseOptions)
  | releasedAll (release : CallId)
  | awaitAll (releasing : Option CallId)
  | dispose (stage : DisposeStage)
  deriving DecidableEq

structure PendingCall where
  id : CallId
  call : ClientCall
  deriving DecidableEq

structure SerialBrokerClient where
  isDisposed : Bool
  /-- `#sessions.get(name)`. -/
  registered : Option SessionId
  /-- `#releasing.get(name)`. -/
  releasing : Option CallId
  /-- `#setUpDuringRelease.has(name)`. -/
  isSetUpDuringRelease : Bool
  sessions : List NamedSession
  calls : List PendingCall
  nextCall : CallId
  /-- The sessions that are being remembered, by the `setup()` that made them. -/
  remembering : List SessionId
  /-- Whether the transport is attached to the name. -/
  isAttached : Bool
  deriving DecidableEq

/-- What happens to the client. -/
inductive ClientEvent
  | setup (call : SetupCall)
  | release (options : ReleaseOptions)
  | releaseAll (options : ReleaseOptions) (isFirst : Bool)
  | dispose (isFirst : Bool)
  | remembered
  | goOn (id : CallId)
  | placeGranted (id : SessionId)
  deriving DecidableEq

namespace SerialBrokerClient

def init : SerialBrokerClient :=
  { isDisposed := false, registered := none, releasing := none, isSetUpDuringRelease := false,
    sessions := [], calls := [],
    nextCall := 0, remembering := [], isAttached := false }

def session? (c : SerialBrokerClient) (id : SessionId) : Option NamedSession :=
  KeyedList.lookup NamedSession.id id c.sessions

def modifySession (c : SerialBrokerClient) (id : SessionId) (f : NamedSession → NamedSession) :
    SerialBrokerClient :=
  { c with sessions := KeyedList.adjust NamedSession.id id f c.sessions }

def isPending (c : SerialBrokerClient) (id : CallId) : Bool :=
  c.calls.any fun pending => pending.id = id

/-- Whether `await releasing` waits. -/
def waitsFor (c : SerialBrokerClient) (releasing : Option CallId) : Bool :=
  releasing.any c.isPending

def setCall (c : SerialBrokerClient) (id : CallId) (call : ClientCall) : SerialBrokerClient :=
  { c with calls := KeyedList.put PendingCall.id ⟨id, call⟩ c.calls }

def endCall (c : SerialBrokerClient) (id : CallId) : SerialBrokerClient :=
  { c with calls := KeyedList.erase PendingCall.id id c.calls }

/-- A call takes its id, and goes on with `f`. -/
def begin (c : SerialBrokerClient) (f : SerialBrokerClient → CallId → SerialBrokerClient) :
    SerialBrokerClient :=
  f { c with nextCall := c.nextCall + 1 } c.nextCall

/-! ### the session -/

/-- `#join`. -/
def join (c : SerialBrokerClient) (id : SessionId) : SerialBrokerClient :=
  match c.session? id with
  | none => c
  | some session =>
    if session.isReleased ∨ session.isJoined then c
    else { c.modifySession id fun s => { s with isJoined := true } with isAttached := true }

/-- `start()`. -/
def start (c : SerialBrokerClient) (id : SessionId) : SerialBrokerClient :=
  match c.session? id with
  | none => c
  | some session =>
    let c := c.modifySession id fun s => { s with isStarted := true }
    if session.isLimited then c else c.join id

/-- Whether `release()` of the session has been called, so that calling it again does nothing. -/
def isReleasedSession (c : SerialBrokerClient) (id : SessionId) : Bool :=
  (c.session? id).all NamedSession.isReleased

/-- `release()` until the port is closed and the locks are let go. -/
def releaseSession (c : SerialBrokerClient) (id : SessionId) : SerialBrokerClient :=
  c.modifySession id fun s => { s with isReleased := true }

/-- The end of `release()`. -/
def releasedSession (c : SerialBrokerClient) (id : SessionId) : SerialBrokerClient :=
  match c.session? id with
  | none => c
  | some session =>
    { c.modifySession id fun s => { s with isOver := true } with
      isAttached := c.isAttached && !session.isJoined }

/-! ### the calls -/

/-- `setup()`, from where it looks for an existing session until the new one is remembered. -/
def setUp (c : SerialBrokerClient) (call : SetupCall) : SerialBrokerClient :=
  if c.registered.isSome ∨ ¬ call.isSupported then c
  else
    let id := c.sessions.length
    { c with
      registered := some id
      sessions := c.sessions ++ [NamedSession.mk id call.isLimited false false false false]
      remembering := id :: c.remembering }

/-- `setup()`. -/
def setup (c : SerialBrokerClient) (call : SetupCall) : SerialBrokerClient :=
  if c.isDisposed then c
  else match c.releasing with
    | none => c.setUp call
    | some releasing =>
      { c with isSetUpDuringRelease := true }.begin fun c id => c.setCall id (.setup call releasing)

/-- The rest of `setup()`, once `#remember` has returned. -/
def remembered (c : SerialBrokerClient) : Option SerialBrokerClient :=
  match c.remembering with
  | [] => none
  | id :: remembering =>
    let c := { c with remembering }
    some (if c.registered = some id then c.start id else c)

/-- `release()` as the call `id`. -/
def releaseAs (c : SerialBrokerClient) (id : CallId) (options : ReleaseOptions) :
    SerialBrokerClient :=
  match c.registered with
  | none =>
    c.setCall id (if c.isSetUpDuringRelease then .releaseAgain options c.releasing
      else .forgetAsAsked options c.releasing)
  | some session =>
    { c with registered := none }.begin fun c finishing =>
      { (c.setCall finishing (.finishRelease session options .lettingGo)).setCall id
          (.release finishing) with
        releasing := some finishing }

def release (c : SerialBrokerClient) (options : ReleaseOptions) : SerialBrokerClient :=
  c.begin fun c id => c.releaseAs id options

/-- The loop of `releaseAll()` reaches the name. -/
def releaseNext (c : SerialBrokerClient) (id : CallId) (options : ReleaseOptions) :
    SerialBrokerClient :=
  c.begin fun c release => (c.releaseAs release options).setCall id (.releasedAll release)

/-- `releaseAll()`. -/
def releaseAll (c : SerialBrokerClient) (options : ReleaseOptions) (isFirst : Bool) :
    SerialBrokerClient :=
  c.begin fun c id =>
    if c.registered.isNone then c.setCall id (.awaitAll c.releasing)
    else if isFirst then c.releaseNext id options
    else c.setCall id (.releaseAll options)

/-- The loop of `dispose()` reaches the name. -/
def disposeNext (c : SerialBrokerClient) (id : CallId) : SerialBrokerClient :=
  match c.registered with
  | none => c.setCall id (.dispose .clearing)
  | some session =>
    if c.isReleasedSession session then c.setCall id (.dispose .clearing)
    else (c.releaseSession session).setCall id (.dispose (.closing session))

/-- `dispose()`. -/
def dispose (c : SerialBrokerClient) (isFirst : Bool) : SerialBrokerClient :=
  if c.isDisposed then c
  else { c with isDisposed := true }.begin fun c id =>
    if isFirst then c.disposeNext id else c.setCall id (.dispose .others)

/-- `#finishRelease` goes on. -/
def finishRelease (c : SerialBrokerClient) (id : CallId) (session : SessionId)
    (options : ReleaseOptions) :
    FinishStage → SerialBrokerClient
  | .lettingGo =>
    if c.isReleasedSession session then c.setCall id (.finishRelease session options .closed)
    else (c.releaseSession session).setCall id (.finishRelease session options .closing)
  | .closing => (c.releasedSession session).setCall id (.finishRelease session options .closed)
  | .closed =>
    if options.forgetDevice ∧ c.registered.isNone ∧ ¬ c.isSetUpDuringRelease then
      c.setCall id (.finishRelease session options .forgettingDevice)
    else c.endCall id
  | .forgettingDevice => c.endCall id

/-- `dispose()` goes on, unless it waits for a release. -/
def disposeOn (c : SerialBrokerClient) (id : CallId) : DisposeStage → Option SerialBrokerClient
  | .others => some (c.disposeNext id)
  | .closing session => some ((c.releasedSession session).setCall id (.dispose .clearing))
  | .clearing => some ({ c with registered := none }.setCall id (.dispose .holds))
  | .holds => some (c.setCall id (.dispose (.awaiting c.releasing)))
  | .awaiting releasing =>
    if c.waitsFor releasing then none else some { c.endCall id with isAttached := false }

/-- A call goes on, unless what it waits for is pending. -/
def goOn (c : SerialBrokerClient) (id : CallId) : Option SerialBrokerClient :=
  (KeyedList.lookup PendingCall.id id c.calls).bind fun pending =>
    match pending.call with
    | .setup call releasing =>
      if c.isPending releasing then none
      else
        let c := { c.endCall id with isSetUpDuringRelease := false }
        some (if c.isDisposed then c else c.setUp call)
    | .finishRelease session options stage => some (c.finishRelease id session options stage)
    | .release releasing =>
      if c.isPending releasing then none
      else some { c.endCall id with
        releasing := if c.releasing = some releasing then none else c.releasing }
    | .releaseAgain options releasing =>
      if c.waitsFor releasing then none else some (c.releaseAs id options)
    | .forgetAsAsked _ releasing => if c.waitsFor releasing then none else some (c.endCall id)
    | .releaseAll options => some (c.releaseNext id options)
    | .releasedAll release =>
      if c.isPending release then none else some (c.setCall id (.awaitAll c.releasing))
    | .awaitAll releasing => if c.waitsFor releasing then none else some (c.endCall id)
    | .dispose stage => c.disposeOn id stage

/-- One step; while a listener runs, only it can call. -/
def step (c : SerialBrokerClient) : ClientEvent → Option SerialBrokerClient
  | .setup call => some (c.setup call)
  | .release options => some (c.release options)
  | .releaseAll options isFirst => some (c.releaseAll options isFirst)
  | .dispose isFirst => some (c.dispose isFirst)
  | .remembered => c.remembered
  | .goOn id => if c.remembering = [] then c.goOn id else none
  | .placeGranted id =>
    if c.remembering = [] ∧ (c.session? id).any (fun s => s.isStarted ∧ s.isLimited) then
      some (c.join id)
    else none

end SerialBrokerClient

end SerialBroker
