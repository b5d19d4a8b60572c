import SerialBroker.Protocol.Decode

/-!
# What a context's transport hands to the client

`SharedWorkerTransport` of `client/transport/shared-worker-transport.ts`, once the worker has
welcomed it, and `BroadcastChannelTransport` of `client/transport/broadcast-channel-transport.ts`:
which of the messages that arrive reach `onMessage`.
-/

namespace SerialBroker.Wire

/-- `SharedWorkerTransport.#receive`: the broker has resolved the addressing. -/
def SharedWorkerTransport.receive (clientId : Identifier) (h : JsHeap) (raw : JsValue) :
    Option Message :=
  match decodeMessage h raw with
  | .error _ => none
  | .ok m =>
    match m.body with
    | .welcome _ | .workerLog _ => none
    | _ => if m.sender = clientId then none else some m

namespace BroadcastChannelTransport

/-- `BROKER_MESSAGE_TYPES`. -/
def brokerMessageTypes : List MessageType := [.hello, .welcome, .workerLog]

/-- `#isAddressedToUs`. -/
def isAddressedToUs (clientId : Identifier) (attached : List ConfigName) (m : Message) : Bool :=
  if m.target ≠ toAll then m.target = clientId
  else
    match m.body.configName? with
    | none => true
    | some configName => configName ∈ attached

/-- `#receive`. -/
def receive (clientId : Identifier) (attached : List ConfigName) (h : JsHeap) (raw : JsValue) :
    Option Message :=
  match decodeMessage h raw with
  | .error _ => none
  | .ok m =>
    if m.body.type ∈ brokerMessageTypes then none
    else if m.sender = clientId then none
    else if isAddressedToUs clientId attached m then some m
    else none

end BroadcastChannelTransport

end SerialBroker.Wire
