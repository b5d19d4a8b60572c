import SerialBroker.Lib.KeyedList
import SerialBroker.Protocol.Decode

/-!
# The worker: what a message makes of its tables, and where it goes

`Broker` of `worker/broker.ts` and `WorkerPorts` of `worker/worker-ports.ts`. The broker keeps the
participants of every configuration, as the latest hello of each one has them; the ports keep who is
behind each port. A message that arrives on a port is decoded, refused unless the port speaks as
itself, and posted on to the ports it is for. What the worker records is left out: none of it
changes where a message goes.
-/

namespace SerialBroker.Wire

def maxParticipants : Nat := 1024

def maxPortsPerParticipant : Nat := 8

def maxConfigurations : Nat := 4 * maxHelloConfigurations

/-- `BROKER_ID`. -/
def brokerId : Identifier := ⟨js "serial-broker/broker", by decide, by decide⟩

/-! ### the broker -/

/-- The participants of a configuration. -/
structure Participants where
  configName : ConfigName
  clients : List Identifier
  deriving DecidableEq

structure Broker where
  configurations : List Participants
  deriving DecidableEq

namespace Broker

variable (b : Broker)

/-- The first loop of `#takePart`: the client is no participant of what it does not name. -/
def leave (clientId : Identifier) (names : List ConfigName) : Broker where
  configurations := b.configurations.filterMap fun participants =>
    if participants.configName ∈ names then some participants
    else
      let clients := participants.clients.filter (· ≠ clientId)
      if clients = [] then none else some { participants with clients }

/-- One round of the second loop of `#takePart`, with `#participantsOf`. -/
def join (clientId : Identifier) (configName : ConfigName) : Broker :=
  match KeyedList.lookup Participants.configName configName b.configurations with
  | some participants =>
    ⟨KeyedList.put Participants.configName ⟨configName,
      KeyedList.put id clientId participants.clients⟩ b.configurations⟩
  | none =>
    if b.configurations.length ≥ maxConfigurations then b
    else ⟨KeyedList.put Participants.configName ⟨configName, [clientId]⟩ b.configurations⟩

/-- `#takePart`. -/
def takePart (clientId : Identifier) (configNames : List ConfigName) : Broker :=
  configNames.eraseDups.foldl (join · clientId) (b.leave clientId configNames)

def participantsOf (configName : ConfigName) : List Identifier :=
  match KeyedList.lookup Participants.configName configName b.configurations with
  | some participants => participants.clients
  | none => []

/-- `#route`: the clients a message is delivered to. -/
def route (m : Message) (sender : Identifier) : List Identifier :=
  if m.target ≠ toAll then [m.target]
  else
    match m.body.configName? with
    | none => []
    | some configName => (b.participantsOf configName).filter (· ≠ sender)

/-- `handleMessage`: the tables afterwards, and the clients the message is delivered to. -/
def handleMessage (clients : List Identifier) (clientId : Identifier) (m : Message) :
    Broker × List Identifier :=
  match m.body with
  | .hello configNames => (b.takePart clientId configNames, [])
  | .welcome _ | .workerLog _ => (b, [])
  | .diagnosticsRequest _ => (b, clients.filter (· ≠ clientId))
  | _ => (b, b.route m clientId)

end Broker

/-! ### the ports -/

/-- The ports of an identity. -/
structure Connected (Port : Type) where
  clientId : Identifier
  ports : List Port

structure WorkerPorts (Port : Type) where
  identities : Port → Option Identifier
  connected : List (Connected Port)
  broker : Broker

/-- `welcomeFor`. -/
def welcomeFor (clientId workerId : Identifier) : Message := ⟨brokerId, clientId, .welcome workerId⟩

/-- `helloSenderOf`. -/
def helloSenderOf (h : JsHeap) (raw : JsValue) : Option Identifier :=
  match record? h raw with
  | none => none
  | some o =>
    if o.get (js "type") ≠ .string (js "hello") then none
    else
      match o.get (js "from") with
      | .string sender =>
        if hsender : sender ≠ [] ∧ sender.length ≤ maxIdentifierLength then some ⟨sender, hsender⟩
        else none
      | _ => none

namespace WorkerPorts

variable {Port : Type} [DecidableEq Port] (w : WorkerPorts Port)

/-- A worker no port has spoken to. -/
def fresh : WorkerPorts Port := ⟨fun _ => none, [], ⟨[]⟩⟩

def portsOf (clientId : Identifier) : List Port :=
  match KeyedList.lookup Connected.clientId clientId w.connected with
  | some connected => connected.ports
  | none => []

/-- `#register`. -/
def register (port : Port) (clientId : Identifier) : Option (WorkerPorts Port) :=
  match KeyedList.lookup Connected.clientId clientId w.connected with
  | none =>
    if w.connected.length ≥ maxParticipants then none
    else some
      { w with connected := KeyedList.put Connected.clientId ⟨clientId, [port]⟩ w.connected }
  | some connected =>
    if port ∉ connected.ports ∧ connected.ports.length ≥ maxPortsPerParticipant then none
    else some { w with
      connected := KeyedList.put Connected.clientId ⟨clientId,
        KeyedList.put id port connected.ports⟩ w.connected }

/-- The message on the ports of the clients it is delivered to. -/
def deliver (m : Message) (clients : List Identifier) : List (Port × Message) :=
  clients.flatMap fun clientId => (w.portsOf clientId).map fun port => (port, m)

/-- `receive`, once the port is known to speak as the sender: registers it, and passes the message
on. -/
def admitted (workerId : Identifier) (port : Port) (m : Message) :
    WorkerPorts Port × List (Port × Message) :=
  match w.register port m.sender with
  | none => (w, [])
  | some w =>
    let welcome := match m.body with
      | .hello _ => [(port, welcomeFor m.sender workerId)]
      | _ => []
    let (broker, clients) := w.broker.handleMessage (w.connected.map Connected.clientId) m.sender m
    ({ w with broker }, welcome ++ w.deliver m clients)

/-- `receive`: the tables afterwards, and what is posted, on which ports. -/
def receive (workerId : Identifier) (port : Port) (h : JsHeap) (raw : JsValue) :
    WorkerPorts Port × List (Port × Message) :=
  match decodeMessage h raw with
  | .error (.versionMismatch _) =>
    match helloSenderOf h raw with
    | some sender => (w, [(port, welcomeFor sender workerId)])
    | none => (w, [])
  | .error _ => (w, [])
  | .ok m =>
    match w.identities port with
    | none =>
      match m.body with
      | .hello _ =>
        if m.sender = brokerId then (w, [])
        else { w with
          identities := Function.update w.identities port (some m.sender) }.admitted workerId port m
      | _ => (w, [])
    | some identity => if m.sender ≠ identity then (w, []) else w.admitted workerId port m

end WorkerPorts

end SerialBroker.Wire
