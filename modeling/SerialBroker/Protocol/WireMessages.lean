import Mathlib
import SerialBroker.Protocol.Limits
import SerialBroker.Protocol.Messages

/-!
# The message vocabulary, as it is on the bus

The sixteen messages of `protocol/messages.ts`. What a field may be is a type of its own, so a
message of this type is within the limits of its fields by construction: an identifier is a
non-empty text of bounded length, a payload spans its own buffer and is not too long. The error of a
failed write, the error of an error message and the report of a context are values of the heap they
came in; what they must be is said where they are read.
-/

namespace SerialBroker.Wire

/-- A text of one to `limit` code units. -/
abbrev BoundedString (limit : Nat) := {s : JsString // s ≠ [] ∧ s.length ≤ limit}

abbrev Identifier := BoundedString maxIdentifierLength

abbrev ConfigName := BoundedString maxConfigNameLength

instance : LawfulBEq ConfigName := inferInstance

/-- A payload: a view of the whole of a buffer of its own. -/
abbrev Payload :=
  {bytes : Uint8Array // bytes.spansItsBuffer = true ∧ bytes.bytes.length ≤ maxPayloadBytes}

/-- `isFiniteNumber`. -/
abbrev FiniteNumber := {n : JsNumber // n.isFinite = true}

/-- `isTabLimit`. -/
def isTabLimit (n : JsNumber) : Bool := n = .infinity false || (n.isInteger && n.isAtLeast 1)

abbrev TabLimit := {n : JsNumber // isTabLimit n = true}

/-- `isUsbId`. -/
def isUsbId (n : JsNumber) : Bool := n.isInteger && n.isAtLeast 0 && n.isAtMost 0xffff

abbrev UsbId := {n : JsNumber // isUsbId n = true}

abbrev Text := {s : JsString // s.length ≤ maxTextLength}

/-- The devices a user can have chosen. -/
inductive ChosenDevice
  | usb (vendorId productId : UsbId)
  | nonUsb
  deriving DecidableEq

inductive StatusDevice
  | chosen (device : ChosenDevice)
  | any
  | auto
  deriving DecidableEq

inductive LogLevel
  | warn
  | error
  deriving DecidableEq

/-- A field of a forwarded record. -/
inductive LogValue
  | string (value : JsString)
  | number (value : FiniteNumber)
  | boolean (value : Bool)
  deriving DecidableEq

def LogValue.value : LogValue → JsValue
  | string value => .string value
  | number value => .number value.val
  | boolean value => .boolean value

/-- What a field spends of the characters of its record. -/
def logCharacters (field : JsString × LogValue) : Nat :=
  match field.2 with
  | .string value => field.1.length + value.length
  | .number _ | .boolean _ => field.1.length

/-- The fields every logger reads by name. -/
def namedLogFields : List JsString := [js "event", js "clientId", js "configName"]

/-- Whether they are what a logger expects them to be. -/
def areNamedFieldsText (fields : List (JsString × LogValue)) : Bool :=
  namedLogFields.all fun name => match fields.lookup name with
    | none | some (.string _) => true
    | some (.number _) | some (.boolean _) => false

/-- A forwarded record of the worker, within what its message and its fields may spend together. -/
structure LogRecord where
  level : LogLevel
  message : BoundedString maxLogRecordCharacters
  fields : List (JsString × LogValue)
  length_fields : fields.length ≤ maxLogRecordValues
  characters : message.val.length + (fields.map logCharacters).sum ≤ maxLogRecordCharacters
  named : areNamedFieldsText fields = true
  deriving DecidableEq

inductive Body
  | hello (configNames : {names : List ConfigName // names.length ≤ maxHelloConfigurations})
  | welcome (worker : Identifier)
  | workerLog (record : LogRecord)
  | ownerClaimed (configName : ConfigName) (term : Identifier) (maxTabs : TabLimit)
  | ownerReleased (configName : ConfigName) (term : Identifier)
  | writeRequest (configName : ConfigName) (requestId : Identifier) (payload : Payload)
      (term : Identifier)
  | writeReady (configName : ConfigName) (requestId term : Identifier)
  | writeApproval (configName : ConfigName) (requestId term : Identifier) (approved : Bool)
  | writeResult (configName : ConfigName) (requestId : Identifier) (error : Option JsValue)
      (term : Option Identifier)
  | dataReceived (configName : ConfigName) (payload : Payload) (text : Option Text)
      (timestamp : FiniteNumber)
  | dataSent (configName : ConfigName) (payload : Payload) (originClientId : Identifier)
      (timestamp : FiniteNumber)
  | status (configName : ConfigName) (status : SerialBrokerStatus) (maxTabs : TabLimit)
      (device : StatusDevice) (term : Identifier)
    (timestamp : FiniteNumber)
  | error (configName : ConfigName) (error : JsValue) (timestamp : FiniteNumber)
  | statusRequest (configName : ConfigName) (retry : Bool) (device : Option ChosenDevice)
  | diagnosticsRequest (requestId : Identifier)
  | diagnosticsReport (requestId : Identifier) (report : JsValue)
  deriving DecidableEq

/-- A message; `sender` and `target` are the fields `from` and `to`. -/
structure Message where
  sender : Identifier
  target : Identifier
  body : Body
  deriving DecidableEq

/-- `'all'`, as a target. -/
def toAll : Identifier := ⟨js "all", by decide, by decide⟩

/-- The discriminator values. -/
inductive MessageType
  | hello | welcome | workerLog | ownerClaimed | ownerReleased | writeRequest | writeReady
  | writeApproval | writeResult
  | dataReceived | dataSent | status | error | statusRequest | diagnosticsRequest
  | diagnosticsReport
  deriving DecidableEq

namespace MessageType

def name : MessageType → JsString
  | hello => js "hello"
  | welcome => js "welcome"
  | workerLog => js "worker-log"
  | ownerClaimed => js "owner-claimed"
  | ownerReleased => js "owner-released"
  | writeRequest => js "write-request"
  | writeReady => js "write-ready"
  | writeApproval => js "write-approval"
  | writeResult => js "write-result"
  | dataReceived => js "data-received"
  | dataSent => js "data-sent"
  | status => js "status"
  | error => js "error"
  | statusRequest => js "status-request"
  | diagnosticsRequest => js "diagnostics-request"
  | diagnosticsReport => js "diagnostics-report"

def all : List MessageType :=
  [hello, welcome, workerLog, ownerClaimed, ownerReleased, writeRequest, writeReady, writeApproval,
    writeResult, dataReceived,
    dataSent, status, error, statusRequest, diagnosticsRequest, diagnosticsReport]

/-- The type a message gives by name, if there is one. -/
def ofName? (s : JsString) : Option MessageType := all.find? fun type => type.name = s

theorem ofName?_eq_some {s : JsString} {type : MessageType} :
    ofName? s = some type ↔ s = type.name := by
  constructor
  · intro h
    have hname := List.find?_some h
    exact (of_decide_eq_true hname).symm
  · rintro rfl
    cases type <;> decide

end MessageType

def Body.type : Body → MessageType
  | hello _ => .hello
  | welcome _ => .welcome
  | workerLog _ => .workerLog
  | ownerClaimed .. => .ownerClaimed
  | ownerReleased .. => .ownerReleased
  | writeRequest .. => .writeRequest
  | writeReady .. => .writeReady
  | writeApproval .. => .writeApproval
  | writeResult .. => .writeResult
  | dataReceived .. => .dataReceived
  | dataSent .. => .dataSent
  | status .. => .status
  | error .. => .error
  | statusRequest .. => .statusRequest
  | diagnosticsRequest _ => .diagnosticsRequest
  | diagnosticsReport .. => .diagnosticsReport

/-- `configNameOf`. -/
def Body.configName? : Body → Option ConfigName
  | hello _ | welcome _ | workerLog _ | diagnosticsRequest _ | diagnosticsReport .. => none
  | ownerClaimed configName .. | ownerReleased configName _ | writeRequest configName ..
  | writeReady configName ..
  | writeApproval configName .. | writeResult configName .. | dataReceived configName ..
  | dataSent configName ..
  | status configName .. | error configName .. | statusRequest configName .. => some configName

end SerialBroker.Wire
