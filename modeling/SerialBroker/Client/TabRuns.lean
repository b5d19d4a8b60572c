import SerialBroker.Client.Session
import SerialBroker.Lib.TransitionSystem

/-!
# Every run of one tab

One tab with anything around it: any message of any sender, any answer of the lock manager, calls of
the application and events at the port, in any order. The terms a tab is granted are the ones the
event brings. A supervisor that is being started reports no open port before its session has taken
the term: opening one takes a turn of its own.

`bereft` records the requests that were addressed to a term when its end was reported, for as long
as they are pending and still addressed to it.
-/

namespace SerialBroker

/-- Everything that can happen to a tab. -/
inductive TabEvent
  | join
  | send (payload : Payload)
  | release
  | retry
  | goOn
  | writeDeadline (requestId : RequestId)
  | port (event : PortEvent)
  | ownerGranted (term : TermId)
  | ownerRefused
  | electionRetried
  | termGranted
  | termRefused
  | electionStopped
  | termLetGo
  | ownerLetGo
  | releaseEnded
  | message (message : ProtocolMessage)
  | checkAnswered (key : EntryId) (answer : CheckAnswer)
  | watchAnswered (key : EntryId) (isEnding : Bool)
  | busReconnected
  deriving DecidableEq

namespace Tab

variable (config : TabConfig)

/-- A turn of a tab that runs nothing. -/
def turn (t : Tab) (f : Tab → Option Tab) : Option Tab := if t.stack = [] then f t else none

/-- A call of the application, which may come from a callback. -/
def callback (t : Tab) (f : Tab → Tab) : Option Tab := if t.mayBeCalled then some (f t) else none

/-- Whether `start()` of the supervisor has not returned. -/
def isStarting (t : Tab) : Bool := t.stack.any fun
  | .takeOwn _ => true
  | _ => false

/-- What the supervisor tells its session, also from a call of the application or while it
starts. -/
def supervisorCallback (t : Tab) (f : Tab → Option Tab) : Option Tab :=
  if t.mayHearSupervisor then f t else none

def step (t : Tab) : TabEvent → Option Tab
  | .join => t.turn fun t => if t.isJoined ∨ t.isReleased then none else some (t.join config)
  | .send payload => t.callback fun t => t.sendPayload config payload
  | .release => t.callback fun t => if t.isReleased then t else t.release
  | .retry =>
    t.callback fun t =>
      if t.isWithdrawn ∨ ¬ t.isJoined then t else t.send config .all (.statusRequest true)
  | .goOn => t.goOn config
  | .writeDeadline requestId => t.turn fun t => some (t.writeDeadline requestId)
  | .port event =>
    let f : Tab → Option Tab := fun t => t.holder.bind fun h => t.portStep config h event
    match event with
    | .status status => if t.isStarting ∧ status = .open then none else t.supervisorCallback f
    | .data .. | .error _ => t.supervisorCallback f
    | _ => t.turn f
  | .ownerGranted term =>
    t.turn fun t => if t.election.phase = .requested then some (t.ownerGranted term) else none
  | .ownerRefused =>
    t.turn fun t => if t.election.phase = .requested then some t.lockRefused else none
  | .electionRetried =>
    t.turn fun t => if t.election.phase = .paused then some t.startElection else none
  | .termGranted => t.turn fun t =>
      match t.election.phase with
      | .locking term => some (t.termGranted config term)
      | _ => none
  | .termRefused => t.turn fun t =>
      match t.election.phase with
      | .locking _ => some t.lockRefused
      | _ => none
  | .electionStopped =>
    t.turn fun t => if t.isReleased ∧ t.hasStoppedHolding then some t.stopElection else none
  | .termLetGo => t.turn fun t =>
      match t.election.phase with
      | .leaving term true => some (t.termLetGo term)
      | _ => none
  | .ownerLetGo => t.turn fun t =>
      match t.election.phase with
      | .leaving _ false => some t.ownerLetGo
      | _ => none
  | .releaseEnded => t.turn fun t =>
      if t.isReleased ∧ t.status ≠ .released ∧ t.election.phase = .left then some t.releaseEnd
      else none
  | .message message => t.turn fun t => some (t.handleMessage message)
  | .checkAnswered key answer => t.turn fun t => some (t.handleTerms (.checkAnswered key answer))
  | .watchAnswered key isEnding =>
    t.turn fun t => some (t.handleTerms (.watchAnswered key isEnding))
  | .busReconnected => t.turn fun t => some (t.busReconnected config)

/-- The pending requests, each with the term it is addressed to. -/
def addressed (t : Tab) : List (RequestId × TermId) :=
  t.writes.filterMap fun write => write.addressedTerm.map fun term => (write.requestId, term)

end Tab

/-- A tab, and the requests that the end of their term has reached. -/
structure TabRun where
  tab : Tab
  bereft : List (RequestId × TermId)
  deriving DecidableEq

namespace TabRun

variable (config : TabConfig)

/-- The requests whose term is reported as ended in this step. -/
def reported (s : TabRun) : TabEvent → List (RequestId × TermId)
  | .goOn =>
    match s.tab.stack with
    | .effects (.ended _ term _ :: _) :: _ => s.tab.addressed.filter fun request => request.2 = term
    | _ => []
  | _ => []

def step (s : TabRun) (e : TabEvent) : Option TabRun :=
  ({ s.tab with outbox := [] }.step config e).map fun t =>
    ⟨t, (s.bereft ++ s.reported e).filter fun request => request ∈ t.addressed⟩

end TabRun

/-- The runs of one tab, whatever is around it. -/
def tabRuns (config : TabConfig) : TransitionSystem TabRun TabEvent :=
  ⟨⟨.init, []⟩, TabRun.step config⟩

end SerialBroker
