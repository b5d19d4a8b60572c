import Mathlib.Logic.Basic

/-!
# The message vocabulary of one configuration

The messages that carry a configuration name, as `protocol/messages.ts` declares them: who sent one,
whom it is for, and the fields of its type that a session reads. Identifiers are opaque, so they are
numbers here; a payload is its bytes. The `question` of the two approval messages is not on the
wire. It numbers the questions a holder asks, so that a run can be asked which of them an approval
answers; no function of a tab reads it.
-/

namespace SerialBroker

abbrev ClientId := Nat
abbrev RequestId := Nat
abbrev TermId := Nat
abbrev Payload := List UInt8

/-- `maxTabs`: how many tabs may use a configuration, `Infinity` for no limit. -/
inductive MaxTabs
  | infinity
  | limit (tabs : Nat)
  deriving DecidableEq

inductive SerialBrokerStatus
  | idle | queued | awaitingPermission | connecting | open | reconnecting | failed | released
  deriving DecidableEq

inductive SerialBrokerErrorCode
  | INVALID_ARGUMENT | UNKNOWN_CONFIGURATION | CONFIGURATION_CONFLICT | CONFIGURATION_RELEASED
  | WEB_SERIAL_UNAVAILABLE | WEB_LOCKS_UNAVAILABLE | TRANSPORT_UNAVAILABLE | BROKER_UNAVAILABLE
  | PERMISSION_REQUIRED | PERMISSION_DENIED | USER_GESTURE_REQUIRED | DEVICE_MISMATCH
  | OPEN_FAILED | OPEN_TIMEOUT | DEVICE_DISCONNECTED | RECONNECT_EXHAUSTED | READ_FAILED
  | NOT_CONNECTED | WRITE_FAILED | WRITE_TIMEOUT | WRITE_QUEUE_FULL | OWNER_LOST_DURING_WRITE
  | PROTOCOL_VERSION_MISMATCH | STORAGE_UNAVAILABLE | STORAGE_CORRUPT | LISTENER_THREW
  | INTERNAL_INVARIANT | UNKNOWN
  deriving DecidableEq

/-- An error of the library: its code, and the two fields of its context that say how far a write
got. -/
structure SerialBrokerError where
  code : SerialBrokerErrorCode
  started : Option Bool
  bytesWritten : Option Nat
  deriving DecidableEq

/-- An error whose context says nothing about a write. -/
def SerialBrokerError.plain (code : SerialBrokerErrorCode) : SerialBrokerError := ⟨code, none, none⟩

/-- Where a message goes: to every participant of its configuration, or to one context. -/
inductive MessageTarget
  | all
  | client (id : ClientId)
  deriving DecidableEq

inductive MessageBody
  | ownerClaimed (term : TermId) (maxTabs : MaxTabs)
  | ownerReleased (term : TermId)
  | writeRequest (requestId : RequestId) (payload : Payload) (term : TermId)
  | writeReady (requestId : RequestId) (term : TermId) (question : Nat)
  | writeApproval (requestId : RequestId) (term : TermId) (approved : Bool) (question : Nat)
  | writeResult (requestId : RequestId) (ok : Bool) (error : Option SerialBrokerError)
      (term : Option TermId)
  | dataReceived (payload : Payload) (text : Option String)
  | dataSent (payload : Payload) (originClientId : ClientId)
  | status (status : SerialBrokerStatus) (maxTabs : MaxTabs) (term : TermId)
  | error (error : SerialBrokerError)
  | statusRequest (retry : Bool)
  deriving DecidableEq

/-- One message; `sender` is the field `from` of the source. -/
structure ProtocolMessage where
  sender : ClientId
  target : MessageTarget
  body : MessageBody
  deriving DecidableEq

/-- The term a message names: the one it speaks for, or is addressed to. -/
def MessageBody.term? : MessageBody → Option TermId
  | .ownerClaimed term _ | .ownerReleased term | .writeRequest _ _ term | .writeReady _ term _
  | .writeApproval _ term _ _ | .status _ _ term => some term
  | .writeResult _ _ _ term => term
  | .dataReceived .. | .dataSent .. | .error _ | .statusRequest _ => none

end SerialBroker
