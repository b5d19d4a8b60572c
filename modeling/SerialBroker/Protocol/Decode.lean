import SerialBroker.Protocol.WireMessages

/-!
# The message-boundary validation layer

`decodeMessage` as `protocol/decode.ts` computes it, with the guards of `protocol/guards.ts`,
`isSerializedError` of `core/errors.ts` and `isParticipantDiagnostics` of
`protocol/decode-diagnostics.ts`. Everything that arrives is a value of a heap. A reader returns its
field in its declared type or leaves the decoder with a failure that names the field and why;
reading a structured clone cannot throw, so there is no other way out.
-/

namespace SerialBroker.Wire

/-- `PROTOCOL_VERSION`. -/
def protocolVersion : JsNumber := .finite 1

def isProtocolVersion (n : JsNumber) : Bool := n.isSafeInteger && n.isAtLeast 1

/-- `MAX_QUOTED_TYPE_LENGTH`. -/
def maxQuotedTypeLength : Nat := 64

/-- Why a message was rejected. -/
inductive DecodeFailure
  | notAnObject
  | versionMismatch (theirVersion : Option JsNumber)
  | unknownType (type : JsString)
  | malformed (type : JsString) (field : String)
  | limitExceeded (type : JsString) (field limit : String)
  deriving DecidableEq

abbrev Decoded (α : Type) := Except DecodeFailure α

/-- `typeof value`, but for `null`. -/
def typeName : JsValue → JsString
  | .undefined => js "undefined"
  | .null => js "null"
  | .boolean _ => js "boolean"
  | .number _ => js "number"
  | .bigint _ => js "bigint"
  | .string _ => js "string"
  | .symbol => js "symbol"
  | .function => js "function"
  | .object _ => js "object"

def quoteType : JsValue → JsString
  | .string s =>
    if s.length > maxQuotedTypeLength then s.take maxQuotedTypeLength ++ js "..." else s
  | value => js "(" ++ typeName value ++ js ")"

/-- `isRecord`: an object that is not an array. -/
def record? (h : JsHeap) (v : JsValue) : Option JsObject := (h.object? v).filter fun o => !o.isArray

def isString : JsValue → Bool
  | .string _ => true
  | _ => false

def isNonEmptyString : JsValue → Bool
  | .string s => s ≠ []
  | _ => false

def isBoolean : JsValue → Bool
  | .boolean _ => true
  | _ => false

def isNumber : JsValue → Bool
  | .number _ => true
  | _ => false

def isFiniteNumber : JsValue → Bool
  | .number n => n.isFinite
  | _ => false

def isSerializedCause (h : JsHeap) (v : JsValue) : Bool :=
  match h.object? v with
  | some o => isString (o.get (js "name")) && isString (o.get (js "message"))
  | none => false

def isSerializedError (h : JsHeap) (v : JsValue) : Bool :=
  match h.object? v with
  | none => false
  | some o =>
    o.get (js "$type") = .string (js "SerialBrokerError") && isString (o.get (js "code")) &&
        isString (o.get (js "message")) &&
      isString (o.get (js "remediation")) && isBoolean (o.get (js "isRetryable")) &&
        isNumber (o.get (js "timestamp")) &&
      (o.get (js "configName") = .undefined || isString (o.get (js "configName"))) &&
      (o.get (js "context") = .undefined || (h.object? (o.get (js "context"))).isSome) &&
      (o.get (js "cause") = .undefined || isSerializedCause h (o.get (js "cause")))

def isReportedConfiguration (h : JsHeap) (v : JsValue) : Bool :=
  match record? h v with
  | some o => isNonEmptyString (o.get (js "name"))
  | none => false

/-- A report whose list of configurations has these entries. -/
def isReportListing (entries : JsObject → List JsValue) (h : JsHeap) (v : JsValue) : Bool :=
  match record? h v with
  | none => false
  | some o =>
    isNonEmptyString (o.get (js "clientId")) &&
      (o.get (js "transport") = .string (js "sharedworker") ||
        o.get (js "transport") = .string (js "broadcastchannel")) &&
      isFiniteNumber (o.get (js "protocolVersion")) && isFiniteNumber (o.get (js "reportedAt")) &&
      match h.object? (o.get (js "configurations")) with
      | some configurations =>
        configurations.isArray && (entries configurations).all (isReportedConfiguration h)
      | none => false

/-- `isParticipantDiagnostics`: `every` skips the holes of the list. -/
def isParticipantDiagnostics : JsHeap → JsValue → Bool := isReportListing JsObject.present

def SerialBrokerStatus.name : SerialBrokerStatus → JsString
  | .idle => js "idle"
  | .queued => js "queued"
  | .awaitingPermission => js "awaiting-permission"
  | .connecting => js "connecting"
  | .open => js "open"
  | .reconnecting => js "reconnecting"
  | .failed => js "failed"
  | .released => js "released"

def statuses : List SerialBrokerStatus :=
  [.idle, .queued, .awaitingPermission, .connecting, .open, .reconnecting, .failed, .released]

/-- `isStatus`, with the status. -/
def status? : JsValue → Option SerialBrokerStatus
  | .string s => statuses.find? fun status => SerialBrokerStatus.name status = s
  | _ => none

/-- `isTabLimit`, with the limit. -/
def tabLimit? : JsValue → Option TabLimit
  | .number n => if hn : isTabLimit n = true then some ⟨n, hn⟩ else none
  | _ => none

def usbId? : JsValue → Option UsbId
  | .number n => if hn : isUsbId n = true then some ⟨n, hn⟩ else none
  | _ => none

def finiteNumber? : JsValue → Option FiniteNumber
  | .number n => if hn : n.isFinite = true then some ⟨n, hn⟩ else none
  | _ => none

/-- Reads the raw message, one declared field at a time. -/
structure FieldReader where
  heap : JsHeap
  raw : JsObject
  type : JsString

namespace FieldReader

variable (r : FieldReader)

def field (name : String) : JsValue := r.raw.get (js name)

def malformed {α : Type} (field : String) : Decoded α := .error (.malformed r.type field)

def exceeded {α : Type} (field limit : String) : Decoded α :=
  .error (.limitExceeded r.type field limit)

/-- What was found of a field, or that it is malformed. -/
def found {α : Type} (field : String) : Option α → Decoded α
  | some value => .ok value
  | none => r.malformed field

/-- `#boundedString`, of a value of the field. -/
def boundedValue (field : String) (maxLength : Nat) (limit : String) :
    JsValue → Decoded (BoundedString maxLength)
  | .string s =>
    if hs : s ≠ [] then if hlength : s.length ≤ maxLength then .ok ⟨s, hs, hlength⟩
      else r.exceeded field limit
    else r.malformed field
  | _ => r.malformed field

def identifier (field : String) : Decoded Identifier :=
  r.boundedValue field maxIdentifierLength "MAX_IDENTIFIER_LENGTH" (r.field field)

def optionalIdentifier (field : String) : Decoded (Option Identifier) :=
  if r.field field = .undefined then .ok none else some <$> r.identifier field

def configName : Decoded ConfigName :=
  r.boundedValue "configName" maxConfigNameLength "MAX_CONFIG_NAME_LENGTH" (r.field "configName")

def target : Decoded Identifier := r.identifier "to"

/-- The loop of `nameList`. -/
def names (field : String) :
    (values : List JsValue) → Decoded {names : List ConfigName // names.length = values.length}
  | [] => .ok ⟨[], rfl⟩
  | value :: values => do
    let name ← r.boundedValue field maxConfigNameLength "MAX_CONFIG_NAME_LENGTH" value
    let rest ← names field values
    .ok ⟨name :: rest.val, congrArg (· + 1) rest.property⟩

def nameList (field : String) :
    Decoded {names : List ConfigName // names.length ≤ maxHelloConfigurations} :=
  match (r.heap.object? (r.field field)).filter JsObject.isArray with
  | none => r.malformed field
  | some array =>
    if hlength : array.elements.length ≤ maxHelloConfigurations then do
      let names ← r.names field array.elements
      .ok ⟨names.val, names.property.le.trans hlength⟩
    else r.exceeded field "MAX_HELLO_CONFIGURATIONS"

/-- A view that a payload may be: copied if it does not span its buffer. -/
def payloadOf (view : Uint8Array) : Decoded Payload :=
  if hlength : view.bytes.length ≤ maxPayloadBytes then
    if hspans : view.spansItsBuffer = true then .ok ⟨view, hspans, hlength⟩
    else .ok ⟨view.slice, Uint8Array.spansItsBuffer_ofBytes _, hlength⟩
  else r.exceeded "payload" "MAX_PAYLOAD_BYTES"

def payload : Decoded Payload :=
  match (r.heap.object? (r.field "payload")).map JsObject.kind with
  | some (.uint8Array view) => r.payloadOf view
  | some (.arrayBuffer bytes) => r.payloadOf (.ofBytes bytes)
  | _ => r.malformed "payload"

def timestamp : Decoded FiniteNumber := r.found "timestamp" (finiteNumber? (r.field "timestamp"))

def optionalText : Decoded (Option Text) :=
  match r.field "text" with
  | .undefined => .ok none
  | .string s =>
    if hlength : s.length ≤ maxTextLength then .ok (some ⟨s, hlength⟩)
      else r.exceeded "text" "MAX_TEXT_LENGTH"
  | _ => r.malformed "text"

def boolean (field : String) : Decoded Bool :=
  match r.field field with
  | .boolean value => .ok value
  | _ => r.malformed field

def device : Decoded StatusDevice :=
  match record? r.heap (r.field "device") with
  | none => r.malformed "device"
  | some value =>
    let kind := value.get (js "kind")
    if kind = .string (js "usb") then
      match usbId? (value.get (js "vendorId")), usbId? (value.get (js "productId")) with
      | some vendorId, some productId => .ok (.chosen (.usb vendorId productId))
      | _, _ => r.malformed "device"
    else if kind = .string (js "non-usb") then .ok (.chosen .nonUsb)
    else if kind = .string (js "any") then .ok .any
    else if kind = .string (js "auto") then .ok .auto
    else r.malformed "device"

/-- A nested field: bounded before its shape is checked. -/
def structured (field : String) (budget : StructureBudget) (valuesLimit charactersLimit : String)
    (isShaped : JsValue → Bool) :
    Decoded JsValue :=
  let value := r.field field
  let excess :=
    if (r.heap.object? value).isSome then exceedsStructureBudget r.heap value budget else none
  match excess with
  | some .values => r.exceeded field valuesLimit
  | some .characters => r.exceeded field charactersLimit
  | none => if isShaped value = true then .ok value else r.malformed field

def error : Decoded JsValue :=
  r.structured "error" ⟨maxErrorValues, maxErrorCharacters⟩ "MAX_ERROR_VALUES"
    "MAX_ERROR_CHARACTERS" (isSerializedError r.heap)

def report : Decoded JsValue :=
  r.structured "report" ⟨maxReportValues, maxReportCharacters⟩ "MAX_REPORT_VALUES"
      "MAX_REPORT_CHARACTERS"
    (isParticipantDiagnostics r.heap)

def logLevel : Decoded LogLevel :=
  if r.field "level" = .string (js "warn") then .ok .warn
  else if r.field "level" = .string (js "error") then .ok .error
  else r.malformed "level"

def logMessage : Decoded (BoundedString maxLogRecordCharacters) :=
  r.boundedValue "message" maxLogRecordCharacters "MAX_LOG_RECORD_CHARACTERS" (r.field "message")

def logValue? : JsValue → Option LogValue
  | .string s => some (.string s)
  | .boolean b => some (.boolean b)
  | .number n => if hn : n.isFinite = true then some (.number ⟨n, hn⟩) else none
  | _ => none

/-- The loop over the entries of a record, with what it has spent. -/
def logEntries : (characters : Nat) → characters ≤ maxLogRecordCharacters →
    (entries : List (JsString × JsValue)) →
    Decoded {fields : List (JsString × LogValue) //
      fields.length = entries.length ∧ characters +
        (fields.map logCharacters).sum ≤ maxLogRecordCharacters}
  | _, hspent, [] => .ok ⟨[], rfl, hspent⟩
  | characters, _, (key, entry) :: entries => do
    let value ← r.found "fields" (logValue? entry)
    if hspent : characters + logCharacters (key, value) ≤ maxLogRecordCharacters then do
      let rest ← logEntries (characters + logCharacters (key, value)) hspent entries
      .ok ⟨(key, value) :: rest.val,
        congrArg (· + 1) rest.property.1, by simpa [Nat.add_assoc] using rest.property.2⟩
    else r.exceeded "fields" "MAX_LOG_RECORD_CHARACTERS"

/-- `logFields`, with the rest of the record. -/
def logRecord : Decoded LogRecord := do
  let level ← r.logLevel
  let message ← r.logMessage
  match record? r.heap (r.field "fields") with
  | none => r.malformed "fields"
  | some record =>
    if hlength : record.properties.length ≤ maxLogRecordValues then do
      let fields ← r.logEntries message.val.length message.property.2 record.properties
      if hnamed : areNamedFieldsText fields.val = true then
        .ok ⟨level, message, fields.val, fields.property.1.le.trans hlength,
          fields.property.2, hnamed⟩
      else r.malformed "fields"
    else r.exceeded "fields" "MAX_LOG_RECORD_VALUES"

/-- The device of a `status-request`, if it has one: one a user can have chosen. -/
def chosenDevice : Decoded (Option ChosenDevice) :=
  if r.field "device" = .undefined then .ok none
  else do
    match ← r.device with
    | .chosen device => .ok (some device)
    | .any | .auto => r.malformed "device"

/-- The error of a `write-result`: one of a successful write is not read. -/
def errorUnless (ok : Bool) : Decoded (Option JsValue) := if ok then .ok none else some <$> r.error

def decodeBody : MessageType → Decoded Body
  | .hello => return .hello (← r.nameList "configNames")
  | .welcome => return .welcome (← r.identifier "worker")
  | .workerLog => return .workerLog (← r.logRecord)
  | .statusRequest =>
    return .statusRequest (← r.configName) (← r.boolean "retry") (← r.chosenDevice)
  | .ownerClaimed => do
    let configName ← r.configName
    let term ← r.identifier "term"
    return .ownerClaimed configName term (← r.found "maxTabs" (tabLimit? (r.field "maxTabs")))
  | .ownerReleased => return .ownerReleased (← r.configName) (← r.identifier "term")
  | .writeRequest =>
    return .writeRequest (← r.configName) (← r.identifier "requestId") (← r.payload)
      (← r.identifier "term")
  | .writeReady =>
    return .writeReady (← r.configName) (← r.identifier "requestId") (← r.identifier "term")
  | .writeApproval =>
    return .writeApproval (← r.configName) (← r.identifier "requestId") (← r.identifier "term")
      (← r.boolean "approved")
  | .writeResult => do
    let configName ← r.configName
    let requestId ← r.identifier "requestId"
    let ok ← r.boolean "ok"
    let error ← r.errorUnless ok
    return .writeResult configName requestId error (← r.optionalIdentifier "term")
  | .dataReceived => do
    let configName ← r.configName
    let payload ← r.payload
    let timestamp ← r.timestamp
    return .dataReceived configName payload (← r.optionalText) timestamp
  | .dataSent =>
    return .dataSent (← r.configName) (← r.payload) (← r.identifier "originClientId")
      (← r.timestamp)
  | .status => do
    let configName ← r.configName
    let status ← r.found "status" (status? (r.field "status"))
    let maxTabs ← r.found "maxTabs" (tabLimit? (r.field "maxTabs"))
    let device ← r.device
    let term ← r.identifier "term"
    return .status configName status maxTabs device term (← r.timestamp)
  | .diagnosticsRequest => return .diagnosticsRequest (← r.identifier "requestId")
  | .diagnosticsReport => return .diagnosticsReport (← r.identifier "requestId") (← r.report)
  | .error => return .error (← r.configName) (← r.error) (← r.timestamp)

end FieldReader

/-- `decodeMessage`. -/
def decodeMessage (h : JsHeap) (raw : JsValue) : Decoded Message :=
  match record? h raw with
  | none => .error .notAnObject
  | some o =>
    let version := o.get (js "v")
    if version ≠ .number protocolVersion then
      .error (.versionMismatch (match version with
        | .number n => if isProtocolVersion n then some n else none
        | _ => none))
    else do
      let type := o.get (js "type")
      let envelope : FieldReader := ⟨h, o, quoteType type⟩
      let sender ← envelope.identifier "from"
      let target ← envelope.target
      match type with
      | .string name =>
        match MessageType.ofName? name with
        | some type => return ⟨sender, target, ← FieldReader.decodeBody ⟨h, o, name⟩ type⟩
        | none => .error (.unknownType (quoteType (.string name)))
      | _ => .error (.unknownType (quoteType type))

end SerialBroker.Wire
