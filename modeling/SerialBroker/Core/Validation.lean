import Mathlib.Data.Rat.Floor
import SerialBroker.Lib.JsTree
import SerialBroker.Protocol.Limits

/-!
# What a configuration may be

The validation boundary of `core/validation.ts` for the name and the options of a configuration,
with the defaults of `core/defaults.ts`. What a setting may be is a type of its own, so a
configuration is valid by construction; a rejection names the first argument that is not what it
must be.

`TextDecoder` is a parameter: the label it reports for a label it accepts.
-/

namespace SerialBroker

/-- What `INVALID_ARGUMENT` reports. -/
structure InvalidArgument where
  argumentName : String
  expected : String
  actual : JsTree

abbrev Validated := Except InvalidArgument

/-! ### names -/

/-- C0, DEL and C1. -/
def isControlCharacter (codeUnit : UInt16) : Bool :=
  codeUnit < 0x20 || (0x7f ≤ codeUnit && codeUnit ≤ 0x9f)

def isHighSurrogate (codeUnit : UInt16) : Bool := 0xd800 ≤ codeUnit && codeUnit ≤ 0xdbff

def isLowSurrogate (codeUnit : UInt16) : Bool := 0xdc00 ≤ codeUnit && codeUnit ≤ 0xdfff

def hasUnpairedSurrogate : JsString → Bool
  | [] => false
  | codeUnit :: text =>
    if isHighSurrogate codeUnit then
      match text with
      | [] => true
      | next :: rest => if isLowSurrogate next then hasUnpairedSurrogate rest else true
    else if isLowSurrogate codeUnit then true
    else hasUnpairedSurrogate text

/-- A name that addresses a configuration. -/
abbrev ConfigurationName := {name : JsString //
  name ≠ [] ∧ name.length ≤ Wire.maxConfigNameLength ∧ name.any isControlCharacter = false ∧
    hasUnpairedSurrogate name = false}

def validateName (name : JsTree) (argumentName : String) : Validated ConfigurationName :=
  match name with
  | .string s =>
    if hempty : s = [] then .error ⟨argumentName, "a non-empty string", name⟩
    else if hlong : s.length > Wire.maxConfigNameLength then
      .error ⟨argumentName, "at most 128 characters", .ofNat s.length⟩
    else if hcontrol : s.any isControlCharacter = true then
      .error ⟨argumentName, "free of control characters", name⟩
    else if hsurrogate : hasUnpairedSurrogate s = true then
      .error ⟨argumentName, "well-formed Unicode, without unpaired surrogates", name⟩
    else .ok ⟨s, hempty, Nat.le_of_not_lt hlong, by simpa using hcontrol, by simpa using hsurrogate⟩
  | _ => .error ⟨argumentName, "a string", name⟩

theorem validateName_string (name : ConfigurationName) (argumentName : String) :
    validateName (.string name.val) argumentName = .ok name := by
  obtain ⟨s, hempty, hlong, hcontrol, hsurrogate⟩ := name
  simp [validateName, hempty, Nat.not_lt.mpr hlong, hcontrol, hsurrogate]

theorem eq_of_validateName {name : JsTree} {argumentName : String} {c : ConfigurationName}
    (h : validateName name argumentName = .ok c) : name = .string c.val := by
  cases name with
  | string s =>
    simp only [validateName] at h
    split at h
    · cases h
    · split at h
      · cases h
      · split at h
        · cases h
        · split at h
          · cases h
          · cases h
            rfl
  | _ => cases h

/-! ### one setting -/

/-- An integer of a range without negative numbers. -/
abbrev IntegerIn (min max : ℕ) := {n : ℕ // min ≤ n ∧ n ≤ max}

/-- An integer of at least one, or `Infinity`. -/
inductive Limit (max : ℕ)
  | atMost (n : IntegerIn 1 max)
  | infinity
  deriving DecidableEq

/-- A finite number of a range. -/
abbrev NumberIn (min max : ℕ) := {q : ℚ // (min : ℚ) ≤ q ∧ q ≤ max}

def requireInteger (value : JsTree) (argumentName : String) (min max : ℕ) :
    Validated (IntegerIn min max) :=
  match value with
  | .number (.finite q) =>
    if q.den = 1 then
      if h : 0 ≤ q.num ∧ min ≤ q.num.toNat ∧ q.num.toNat ≤ max then .ok ⟨q.num.toNat, h.2⟩
      else .error ⟨argumentName, s!"an integer between {min} and {max}", value⟩
    else .error ⟨argumentName, "an integer", value⟩
  | _ => .error ⟨argumentName, "an integer", value⟩

def requireIntegerOrInfinity (value : JsTree) (argumentName : String) (max : ℕ) :
    Validated (Limit max) :=
  match value with
  | .number (.infinity false) => .ok .infinity
  | _ =>
    match requireInteger value argumentName 1 max with
    | .ok n => .ok (.atMost n)
    | .error _ => .error ⟨argumentName, s!"an integer between 1 and {max}, or Infinity", value⟩

def requireFiniteNumber (value : JsTree) (argumentName : String) (min max : ℕ) :
    Validated (NumberIn min max) :=
  match value with
  | .number (.finite q) =>
    if h : (min : ℚ) ≤ q ∧ q ≤ max then .ok ⟨q, h⟩
      else .error ⟨argumentName, s!"between {min} and {max}", value⟩
  | _ => .error ⟨argumentName, "a finite number", value⟩

def requireBoolean (value : JsTree) (argumentName : String) : Validated Bool :=
  match value with
  | .boolean b => .ok b
  | _ => .error ⟨argumentName, "a boolean", value⟩

/-- The settings of an enumeration, in the order a rejection lists them, with their values. -/
class Enumeration (α : Type) where
  allowed : List α
  value : α → JsTree
  text : α → String
  defined : ∀ a, (value a).isUndefined = false
  kept : ∀ a, (value a).reread = value a
  found : ∀ a, allowed.find? (fun b => (value b).isSame (value a)) = some a

def requireOneOf (α : Type) [Enumeration α] (value : JsTree) (argumentName : String) :
    Validated α :=
  match Enumeration.allowed.find? fun a : α => (Enumeration.value a).isSame value with
  | some a => .ok a
  | none =>
    .error ⟨argumentName,
      "one of " ++ ", ".intercalate ((Enumeration.allowed : List α).map Enumeration.text), value⟩

def requireObject (value : JsTree) (argumentName : String) : Validated JsFields :=
  match value with
  | .object properties => .ok properties
  | _ => .error ⟨argumentName, "an object", value⟩

def optionalObject (value : JsTree) (argumentName : String) : Validated JsFields :=
  if value.isUndefined then .ok [] else requireObject value argumentName

def orDefault (value fallback : JsTree) : JsTree := if value.isUndefined then fallback else value

theorem orDefault_of_defined {value : JsTree} (h : value.isUndefined = false) (fallback : JsTree) :
    orDefault value fallback = value := by
  rw [orDefault, h]
  rfl

def Limit.value {max : ℕ} : Limit max → JsTree
  | atMost n => .ofNat n.val
  | infinity => .number (.infinity false)

@[simp] theorem requireInteger_ofNat {min max : ℕ} (n : IntegerIn min max) (argumentName : String) :
    requireInteger (.ofNat n.val) argumentName min max = .ok n := by
  simp [requireInteger, JsTree.ofNat, n.property]

@[simp] theorem requireIntegerOrInfinity_value {max : ℕ} (n : Limit max) (argumentName : String) :
    requireIntegerOrInfinity n.value argumentName max = .ok n := by
  cases n with
  | atMost n =>
    show (match requireInteger (.ofNat n.val) argumentName 1 max with
      | .ok n => Except.ok (Limit.atMost n)
      | .error _ => _) = _
    rw [requireInteger_ofNat]
  | infinity => rfl

@[simp] theorem requireFiniteNumber_finite {min max : ℕ} (q : NumberIn min max)
    (argumentName : String) :
    requireFiniteNumber (.number (.finite q.val)) argumentName min max = .ok q := by
  rw [requireFiniteNumber, dif_pos q.property]

@[simp] theorem requireBoolean_boolean (b : Bool) (argumentName : String) :
    requireBoolean (.boolean b) argumentName = .ok b := rfl

@[simp] theorem requireOneOf_value {α : Type} [Enumeration α] (a : α) (argumentName : String) :
    requireOneOf α (Enumeration.value a) argumentName = .ok a := by
  rw [requireOneOf, Enumeration.found]

/-! ### the device -/

def usbIdMax : ℕ := 0xffff

/-- What auto mode resolves to. -/
inductive ResolvedDevice
  | usb (vendorId productId : IntegerIn 0 usbIdMax)
  | nonUsb
  deriving DecidableEq

inductive NormalizedDeviceFilter
  | resolved (device : ResolvedDevice)
  | any
  | auto (resolved : Option ResolvedDevice)
  deriving DecidableEq

/-- `DEVICE_SHAPES`. -/
def deviceShapes : String :=
  "one of \x7b vendorId, productId \x7d, \x7b any: true \x7d, \x7b nonUsb: true \x7d or \x7b auto: true \x7d, not a mixture"

def requireFlag (value : JsTree) (argumentName : String) : Validated Bool :=
  match value with
  | .undefined => .ok false
  | .boolean true => .ok true
  | _ => .error ⟨argumentName, "true, or absent", value⟩

def normalizeUsbDevice (vendorId productId : JsTree) (argumentName : String) :
    Validated ResolvedDevice := do
  let vendorId ← requireInteger vendorId (argumentName ++ ".vendorId") 0 usbIdMax
  let productId ← requireInteger productId (argumentName ++ ".productId") 0 usbIdMax
  return .usb vendorId productId

def normalizeResolvedDevice (resolved : JsTree) : Validated ResolvedDevice := do
  let argumentName := "options.device.resolved"
  let raw ← requireObject resolved argumentName
  let wantsNonUsb := raw.get (js "nonUsb")
  let vendorId := raw.get (js "vendorId")
  let productId := raw.get (js "productId")
  if ← requireFlag wantsNonUsb (argumentName ++ ".nonUsb") then
    if vendorId.isUndefined && productId.isUndefined then return .nonUsb
    else throw ⟨argumentName,
      "either \x7b vendorId, productId \x7d or \x7b nonUsb: true \x7d, not both", resolved⟩
  else normalizeUsbDevice vendorId productId argumentName

def normalizeDeviceFilter (device : JsTree) : Validated NormalizedDeviceFilter := do
  if device.isUndefined then return .auto none
  let raw ← requireObject device "options.device"
  let wantsAuto ← requireFlag (raw.get (js "auto")) "options.device.auto"
  let wantsAny ← requireFlag (raw.get (js "any")) "options.device.any"
  let wantsNonUsb ← requireFlag (raw.get (js "nonUsb")) "options.device.nonUsb"
  let vendorId := raw.get (js "vendorId")
  let productId := raw.get (js "productId")
  let resolved := raw.get (js "resolved")
  let shapes := [wantsAuto, wantsAny, wantsNonUsb,
    !(vendorId.isUndefined && productId.isUndefined)].count true
  if shapes > 1 || (!resolved.isUndefined && !wantsAuto) then
    throw ⟨"options.device", deviceShapes, device⟩
  else if wantsAuto then
    if resolved.isUndefined then return .auto none
    else return .auto (some (← normalizeResolvedDevice resolved))
  else if wantsAny then return .any
  else if wantsNonUsb then return .resolved .nonUsb
  else return .resolved (← normalizeUsbDevice vendorId productId "options.device")

/-! ### the options -/

def maxBaudRate : ℕ := 20000000

/-- `MAX_BUFFER_BYTES`. -/
def maxChunkBytes : ℕ := 16 * 1024 * 1024

/-- `MAX_DELAY_MS`. -/
def longestDelayMs : ℕ := 3600000

/-- `MAX_TIMEOUT_MS`. -/
def longestTimeoutMs : ℕ := 600000

/-- `MAX_ATTEMPTS`. -/
def mostAttempts : ℕ := 1000000

/-- `MAX_TAB_LIMIT`. -/
def largestTabLimit : ℕ := 100

inductive DataBits
  | seven
  | eight
  deriving DecidableEq

inductive StopBits
  | one
  | two
  deriving DecidableEq

inductive Parity
  | none
  | even
  | odd
  deriving DecidableEq

inductive FlowControl
  | none
  | hardware
  deriving DecidableEq

instance : Enumeration DataBits where
  allowed := [.seven, .eight]
  value
    | .seven => .ofNat 7
    | .eight => .ofNat 8
  text
    | .seven => "7"
    | .eight => "8"
  defined a := by cases a <;> rfl
  kept a := by cases a <;> rfl
  found a := by cases a <;> rfl

instance : Enumeration StopBits where
  allowed := [.one, .two]
  value
    | .one => .ofNat 1
    | .two => .ofNat 2
  text
    | .one => "1"
    | .two => "2"
  defined a := by cases a <;> rfl
  kept a := by cases a <;> rfl
  found a := by cases a <;> rfl

instance : Enumeration Parity where
  allowed := [.none, .even, .odd]
  value
    | .none => .string (js "none")
    | .even => .string (js "even")
    | .odd => .string (js "odd")
  text
    | .none => "none"
    | .even => "even"
    | .odd => "odd"
  defined a := by cases a <;> rfl
  kept a := by cases a <;> rfl
  found a := by cases a <;> rfl

instance : Enumeration FlowControl where
  allowed := [.none, .hardware]
  value
    | .none => .string (js "none")
    | .hardware => .string (js "hardware")
  text
    | .none => "none"
    | .hardware => "hardware"
  defined a := by cases a <;> rfl
  kept a := by cases a <;> rfl
  found a := by cases a <;> rfl

structure NormalizedSerialSettings where
  baudRate : IntegerIn 1 maxBaudRate
  dataBits : DataBits
  stopBits : StopBits
  parity : Parity
  bufferSize : IntegerIn 1 maxChunkBytes
  flowControl : FlowControl
  deriving DecidableEq

structure NormalizedConnectionSettings where
  initialDelayMs : IntegerIn 0 longestDelayMs
  factor : NumberIn 1 100
  maxDelayMs : IntegerIn 0 longestDelayMs
  jitter : NumberIn 0 1
  maxAttempts : Limit mostAttempts
  stableAfterMs : IntegerIn 0 longestDelayMs
  openTimeoutMs : IntegerIn 1 longestTimeoutMs
  writeTimeoutMs : IntegerIn 1 longestTimeoutMs
  maxWriteChunkBytes : IntegerIn 1 maxChunkBytes
  autoReconnect : Bool
  deriving DecidableEq

structure NormalizedReceiveSettings where
  idleMs : IntegerIn 0 longestDelayMs
  maxWaitMs : IntegerIn 1 longestDelayMs
  deriving DecidableEq

structure NormalizedEncodingSettings where
  encoding : JsString
  decodeText : Bool
  deriving DecidableEq

structure NormalizedConfiguration where
  name : ConfigurationName
  device : NormalizedDeviceFilter
  serial : NormalizedSerialSettings
  connection : NormalizedConnectionSettings
  encoding : NormalizedEncodingSettings
  receive : NormalizedReceiveSettings
  remember : Bool
  maxTabs : Limit largestTabLimit
  deriving DecidableEq

section normalize

variable (textDecoder : JsString → Option JsString)

def validateEncodingLabel (value : JsTree) (argumentName : String) : Validated JsString :=
  match value with
  | .string label =>
    match if label = [] then none else textDecoder label with
    | some encoding => .ok encoding
    | none => .error ⟨argumentName, "an encoding label that TextDecoder accepts", value⟩
  | _ => .error ⟨argumentName, "an encoding label that TextDecoder accepts", value⟩

def normalizeSerial (serial : JsFields) : Validated NormalizedSerialSettings := do
  let baudRate ← requireInteger (serial.get (js "baudRate")) "options.serial.baudRate" 1 maxBaudRate
  let dataBits ← requireOneOf DataBits (orDefault (serial.get (js "dataBits")) (.ofNat 8))
    "options.serial.dataBits"
  let stopBits ← requireOneOf StopBits (orDefault (serial.get (js "stopBits")) (.ofNat 1))
    "options.serial.stopBits"
  let parity ← requireOneOf Parity (orDefault (serial.get (js "parity")) (.string (js "none")))
    "options.serial.parity"
  let bufferSize ← requireInteger (orDefault (serial.get (js "bufferSize")) (.ofNat 255))
    "options.serial.bufferSize" 1 maxChunkBytes
  let flowControl ← requireOneOf FlowControl
      (orDefault (serial.get (js "flowControl")) (.string (js "none")))
    "options.serial.flowControl"
  return ⟨baudRate, dataBits, stopBits, parity, bufferSize, flowControl⟩

def normalizeConnection (connection : JsFields) : Validated NormalizedConnectionSettings := do
  let initialDelayMs ← requireInteger
      (orDefault (connection.get (js "initialDelayMs")) (.ofNat 250))
    "options.connection.initialDelayMs" 0 longestDelayMs
  let factor ← requireFiniteNumber (orDefault (connection.get (js "factor")) (.ofNat 2))
    "options.connection.factor" 1 100
  let maxDelayMs ← requireInteger (orDefault (connection.get (js "maxDelayMs")) (.ofNat 30000))
    "options.connection.maxDelayMs" 0 longestDelayMs
  let jitter ← requireFiniteNumber (orDefault (connection.get (js "jitter"))
    (.number (.finite (1 / 2)))) "options.connection.jitter" 0 1
  let maxAttempts ← requireIntegerOrInfinity
      (orDefault (connection.get (js "maxAttempts")) (.number (.infinity false)))
    "options.connection.maxAttempts" mostAttempts
  let stableAfterMs ← requireInteger (orDefault (connection.get (js "stableAfterMs")) (.ofNat 5000))
    "options.connection.stableAfterMs" 0 longestDelayMs
  let openTimeoutMs ← requireInteger
      (orDefault (connection.get (js "openTimeoutMs")) (.ofNat 10000))
    "options.connection.openTimeoutMs" 1 longestTimeoutMs
  let writeTimeoutMs ← requireInteger
      (orDefault (connection.get (js "writeTimeoutMs")) (.ofNat 5000))
    "options.connection.writeTimeoutMs" 1 longestTimeoutMs
  let maxWriteChunkBytes ← requireInteger
      (orDefault (connection.get (js "maxWriteChunkBytes")) (.ofNat 4096))
    "options.connection.maxWriteChunkBytes" 1 maxChunkBytes
  let autoReconnect ← requireBoolean (orDefault (connection.get (js "autoReconnect"))
    (.boolean true)) "options.connection.autoReconnect"
  return ⟨initialDelayMs, factor, maxDelayMs, jitter, maxAttempts, stableAfterMs, openTimeoutMs,
    writeTimeoutMs, maxWriteChunkBytes, autoReconnect⟩

def normalizeReceive (receive : JsFields) : Validated NormalizedReceiveSettings := do
  let idleMs ← requireInteger (orDefault (receive.get (js "idleMs")) (.ofNat 50))
    "options.receive.idleMs" 0 longestDelayMs
  let maxWaitMs ← requireInteger (orDefault (receive.get (js "maxWaitMs")) (.ofNat 500))
    "options.receive.maxWaitMs" 1 longestDelayMs
  return ⟨idleMs, maxWaitMs⟩

def normalizeEncoding (encoding : JsFields) : Validated NormalizedEncodingSettings := do
  let label ← validateEncodingLabel textDecoder
      (orDefault (encoding.get (js "encoding")) (.string (js "utf-8")))
    "options.encoding.encoding"
  let decodeText ← requireBoolean (orDefault (encoding.get (js "decodeText")) (.boolean false))
    "options.encoding.decodeText"
  return ⟨label, decodeText⟩

def normalizeConfiguration (name options : JsTree) : Validated NormalizedConfiguration := do
  let validName ← validateName name "name"
  let raw ← requireObject options "options"
  let serial ← requireObject (raw.get (js "serial")) "options.serial"
  let connection ← optionalObject (raw.get (js "connection")) "options.connection"
  let encoding ← optionalObject (raw.get (js "encoding")) "options.encoding"
  let receive ← optionalObject (raw.get (js "receive")) "options.receive"
  let device ← normalizeDeviceFilter (raw.get (js "device"))
  let serial ← normalizeSerial serial
  let connection ← normalizeConnection connection
  let receive ← normalizeReceive receive
  let encoding ← normalizeEncoding textDecoder encoding
  let remember ← requireBoolean (orDefault (raw.get (js "remember")) (.boolean true))
    "options.remember"
  let maxTabs ← requireIntegerOrInfinity (orDefault (raw.get (js "maxTabs"))
    (.number (.infinity false))) "options.maxTabs" largestTabLimit
  return ⟨validName, device, serial, connection, encoding, receive, remember, maxTabs⟩

end normalize

/-! ### back into options -/

def ResolvedDevice.options : ResolvedDevice → JsTree
  | usb vendorId productId =>
    .object [(js "vendorId", .ofNat vendorId.val), (js "productId", .ofNat productId.val)]
  | nonUsb => .object [(js "nonUsb", .boolean true)]

def toDeviceOptions : NormalizedDeviceFilter → JsTree
  | .resolved device => device.options
  | .any => .object [(js "any", .boolean true)]
  | .auto none => .object [(js "auto", .boolean true)]
  | .auto (some device) => .object [(js "auto", .boolean true), (js "resolved", device.options)]

def NormalizedSerialSettings.fields (serial : NormalizedSerialSettings) : JsFields :=
  [(js "baudRate", .ofNat serial.baudRate.val), (js "dataBits", Enumeration.value serial.dataBits),
    (js "stopBits", Enumeration.value serial.stopBits),
    (js "parity", Enumeration.value serial.parity),
    (js "bufferSize", .ofNat serial.bufferSize.val),
    (js "flowControl", Enumeration.value serial.flowControl)]

/-- The connection settings, with `maxAttempts` as it is to be given. -/
def NormalizedConnectionSettings.fields (connection : NormalizedConnectionSettings)
    (maxAttempts : JsTree) : JsFields :=
  [(js "initialDelayMs", .ofNat connection.initialDelayMs.val),
    (js "factor", .number (.finite connection.factor.val)),
    (js "maxDelayMs", .ofNat connection.maxDelayMs.val),
    (js "jitter", .number (.finite connection.jitter.val)),
    (js "maxAttempts", maxAttempts), (js "stableAfterMs", .ofNat connection.stableAfterMs.val),
    (js "openTimeoutMs", .ofNat connection.openTimeoutMs.val),
    (js "writeTimeoutMs", .ofNat connection.writeTimeoutMs.val),
    (js "maxWriteChunkBytes", .ofNat connection.maxWriteChunkBytes.val),
    (js "autoReconnect", .boolean connection.autoReconnect)]

def NormalizedEncodingSettings.fields (encoding : NormalizedEncodingSettings) : JsFields :=
  [(js "encoding", .string encoding.encoding), (js "decodeText", .boolean encoding.decodeText)]

def NormalizedReceiveSettings.fields (receive : NormalizedReceiveSettings) : JsFields :=
  [(js "idleMs", .ofNat receive.idleMs.val), (js "maxWaitMs", .ofNat receive.maxWaitMs.val)]

/-- The options of a configuration, with the two limits and `remember` as they are to be given. -/
def NormalizedConfiguration.fields (c : NormalizedConfiguration)
    (maxAttempts remember maxTabs : JsTree) : JsFields :=
  [(js "device", toDeviceOptions c.device), (js "serial", .object c.serial.fields),
    (js "connection", .object (c.connection.fields maxAttempts)),
    (js "encoding", .object c.encoding.fields),
    (js "receive", .object c.receive.fields), (js "remember", remember), (js "maxTabs", maxTabs)]

def toSetupOptions (c : NormalizedConfiguration) : JsTree :=
  .object (c.fields c.connection.maxAttempts.value (.boolean c.remember) c.maxTabs.value)

/-- `Infinity` is left out, since JSON has none. -/
def Limit.storable {max : ℕ} : Limit max → JsTree
  | infinity => .undefined
  | limit => limit.value

def toStorable (c : NormalizedConfiguration) : JsTree :=
  .object (c.fields c.connection.maxAttempts.storable (.boolean true) c.maxTabs.storable)

section roundTrip

variable {textDecoder : JsString → Option JsString}

theorem normalizeSerial_fields (serial : NormalizedSerialSettings) :
    normalizeSerial serial.fields = .ok serial := by
  have hbaudRate : serial.fields.get (js "baudRate") = .ofNat serial.baudRate.val := rfl
  have hdataBits : serial.fields.get (js "dataBits") = Enumeration.value serial.dataBits := rfl
  have hstopBits : serial.fields.get (js "stopBits") = Enumeration.value serial.stopBits := rfl
  have hparity : serial.fields.get (js "parity") = Enumeration.value serial.parity := rfl
  have hbufferSize : serial.fields.get (js "bufferSize") = .ofNat serial.bufferSize.val := rfl
  have hflowControl : serial.fields.get (js "flowControl") = Enumeration.value serial.flowControl :=
    rfl
  rw [normalizeSerial, hbaudRate, hdataBits, hstopBits, hparity, hbufferSize, hflowControl]
  rw [orDefault_of_defined (Enumeration.defined _), orDefault_of_defined (Enumeration.defined _),
    orDefault_of_defined (Enumeration.defined _), orDefault_of_defined (Enumeration.defined _),
    orDefault_of_defined rfl]
  simp only [requireInteger_ofNat, requireOneOf_value, bind, Except.bind, pure, Except.pure]

def defaultBufferSize : IntegerIn 1 maxChunkBytes := ⟨255, by decide⟩

/-- `DEFAULT_SERIAL_SETTINGS`, which have no line speed. -/
def defaultSerial (baudRate : IntegerIn 1 maxBaudRate) : NormalizedSerialSettings :=
  ⟨baudRate, .eight, .one, .none, defaultBufferSize, .none⟩

theorem normalizeSerial_defaults (baudRate : IntegerIn 1 maxBaudRate) :
    normalizeSerial [(js "baudRate", .ofNat baudRate.val)] = .ok (defaultSerial baudRate) := by
  have hbaudRate : JsFields.get [(js "baudRate", .ofNat baudRate.val)] (js "baudRate") =
      .ofNat baudRate.val := rfl
  have hother : ∀ name, name ≠ js "baudRate" →
      JsFields.get [(js "baudRate", .ofNat baudRate.val)] name = .undefined := fun name hname =>
    JsTree.get_of_notMem (by simpa using hname)
  rw [normalizeSerial, hbaudRate, hother _ (by decide), hother _ (by decide), hother _ (by decide),
    hother _ (by decide), hother _ (by decide)]
  simp only [requireInteger_ofNat, bind, Except.bind]
  rfl

theorem Limit.value_defined {max : ℕ} (n : Limit max) : n.value.isUndefined = false := by
  cases n <;> rfl

/-- A limit is read back from what it is stored as, the default being `Infinity`. -/
theorem orDefault_storable {max : ℕ} (n : Limit max) :
    orDefault n.storable (.number (.infinity false)) = n.value := by
  cases n <;> rfl

/-- The settings are read back from their fields, whichever way `maxAttempts` was given. -/
theorem normalizeConnection_fields (connection : NormalizedConnectionSettings)
    {maxAttempts : JsTree}
    (hmaxAttempts : orDefault maxAttempts
      (.number (.infinity false)) = connection.maxAttempts.value) :
    normalizeConnection (connection.fields maxAttempts) = .ok connection := by
  have hinitialDelayMs :
    (connection.fields maxAttempts).get (js "initialDelayMs") = .ofNat
    connection.initialDelayMs.val := rfl
  have hfactor : (connection.fields maxAttempts).get (js "factor") = .number
    (.finite connection.factor.val) := rfl
  have hmaxDelayMs :
    (connection.fields maxAttempts).get (js "maxDelayMs") = .ofNat connection.maxDelayMs.val := rfl
  have hjitter : (connection.fields maxAttempts).get (js "jitter") = .number
    (.finite connection.jitter.val) := rfl
  have hattempts : (connection.fields maxAttempts).get (js "maxAttempts") = maxAttempts := rfl
  have hstableAfterMs :
    (connection.fields maxAttempts).get (js "stableAfterMs") = .ofNat
    connection.stableAfterMs.val := rfl
  have hopenTimeoutMs :
    (connection.fields maxAttempts).get (js "openTimeoutMs") = .ofNat
    connection.openTimeoutMs.val := rfl
  have hwriteTimeoutMs :
    (connection.fields maxAttempts).get (js "writeTimeoutMs") = .ofNat
    connection.writeTimeoutMs.val := rfl
  have hmaxWriteChunkBytes :
      (connection.fields maxAttempts).get (js "maxWriteChunkBytes") = .ofNat
        connection.maxWriteChunkBytes.val := rfl
  have hautoReconnect :
    (connection.fields maxAttempts).get (js "autoReconnect") = .boolean connection.autoReconnect :=
    rfl
  rw [normalizeConnection, hinitialDelayMs, hfactor, hmaxDelayMs, hjitter, hattempts,
    hstableAfterMs, hopenTimeoutMs, hwriteTimeoutMs,
    hmaxWriteChunkBytes, hautoReconnect, hmaxAttempts]
  iterate 9 rw [orDefault_of_defined rfl]
  simp only [requireInteger_ofNat, requireFiniteNumber_finite, requireIntegerOrInfinity_value,
    requireBoolean_boolean, bind,
    Except.bind, pure, Except.pure]

/-- `DEFAULT_CONNECTION_SETTINGS`. -/
def defaultConnection : NormalizedConnectionSettings where
  initialDelayMs := ⟨250, by decide⟩
  factor := ⟨2, by norm_num⟩
  maxDelayMs := ⟨30000, by decide⟩
  jitter := ⟨1 / 2, by norm_num⟩
  maxAttempts := .infinity
  stableAfterMs := ⟨5000, by decide⟩
  openTimeoutMs := ⟨10000, by decide⟩
  writeTimeoutMs := ⟨5000, by decide⟩
  maxWriteChunkBytes := ⟨4096, by decide⟩
  autoReconnect := true

/-- The defaults pass their own checks. -/
theorem normalizeConnection_defaults : normalizeConnection [] = .ok defaultConnection := by
  have hfactor : requireFiniteNumber (.ofNat 2) "options.connection.factor" 1
      100 = .ok defaultConnection.factor :=
    requireFiniteNumber_finite defaultConnection.factor _
  have hjitter : requireFiniteNumber (.number (.finite (1 / 2))) "options.connection.jitter" 0
      1 = .ok defaultConnection.jitter :=
    requireFiniteNumber_finite defaultConnection.jitter _
  have hget : ∀ name : JsString, JsFields.get [] name = .undefined := fun _ => rfl
  have hdefault : ∀ fallback : JsTree, orDefault .undefined fallback = fallback := fun _ => rfl
  simp only [normalizeConnection, hget, hdefault, hfactor, hjitter]
  rfl

theorem normalizeReceive_fields (receive : NormalizedReceiveSettings) :
    normalizeReceive receive.fields = .ok receive := by
  have hidleMs : receive.fields.get (js "idleMs") = .ofNat receive.idleMs.val := rfl
  have hmaxWaitMs : receive.fields.get (js "maxWaitMs") = .ofNat receive.maxWaitMs.val := rfl
  rw [normalizeReceive, hidleMs, hmaxWaitMs, orDefault_of_defined rfl, orDefault_of_defined rfl]
  simp only [requireInteger_ofNat, bind, Except.bind, pure, Except.pure]

/-- `DEFAULT_RECEIVE_SETTINGS`. -/
def defaultReceive : NormalizedReceiveSettings where
  idleMs := ⟨50, by decide⟩
  maxWaitMs := ⟨500, by decide⟩

theorem normalizeReceive_defaults : normalizeReceive [] = .ok defaultReceive := rfl

theorem normalizeEncoding_fields (encoding : NormalizedEncodingSettings)
    (hlabel : encoding.encoding ≠ [])
    (hsame : textDecoder encoding.encoding = some encoding.encoding) :
    normalizeEncoding textDecoder encoding.fields = .ok encoding := by
  have hencoding : encoding.fields.get (js "encoding") = .string encoding.encoding := rfl
  have hdecodeText : encoding.fields.get (js "decodeText") = .boolean encoding.decodeText := rfl
  rw [normalizeEncoding, hencoding, hdecodeText, orDefault_of_defined rfl, orDefault_of_defined rfl]
  simp only [validateEncodingLabel, if_neg hlabel, hsame, requireBoolean_boolean, bind, Except.bind,
    pure, Except.pure]

theorem normalizeResolvedDevice_options (device : ResolvedDevice) :
    normalizeResolvedDevice device.options = .ok device := by
  cases device with
  | usb vendorId productId =>
    show normalizeUsbDevice (.ofNat vendorId.val) (.ofNat productId.val) _ = _
    simp only [normalizeUsbDevice, requireInteger_ofNat, bind, Except.bind, pure, Except.pure]
  | nonUsb => rfl

theorem normalizeDeviceFilter_options (device : NormalizedDeviceFilter) :
    normalizeDeviceFilter (toDeviceOptions device) = .ok device := by
  cases device with
  | resolved device =>
    cases device with
    | usb vendorId productId =>
      show (normalizeUsbDevice (.ofNat vendorId.val) (.ofNat productId.val) "options.device" >>=
          fun device =>
        pure (NormalizedDeviceFilter.resolved device)) = _
      simp only [normalizeUsbDevice, requireInteger_ofNat, bind, Except.bind, pure, Except.pure]
    | nonUsb => rfl
  | any => rfl
  | auto resolved =>
    cases resolved with
    | none => rfl
    | some device =>
      have hresolved := normalizeResolvedDevice_options device
      cases device with
      | usb vendorId productId =>
        show (normalizeResolvedDevice (ResolvedDevice.usb vendorId productId).options >>=
            fun device =>
          pure (NormalizedDeviceFilter.auto (some device))) = _
        rw [hresolved]
        rfl
      | nonUsb => rfl

/-- A configuration is read from options whose parts are read as its own. -/
theorem normalizeConfiguration_of_parts {c : NormalizedConfiguration}
    {raw serial connection encoding receive : JsFields}
    (hserialFields : raw.get (js "serial") = .object serial)
    (hconnectionFields : raw.get (js "connection") = .object connection)
    (hencodingFields : raw.get (js "encoding") = .object encoding)
    (hreceiveFields : raw.get (js "receive") = .object receive)
    (hdevice : normalizeDeviceFilter (raw.get (js "device")) = .ok c.device)
    (hserial : normalizeSerial serial = .ok c.serial)
    (hconnection : normalizeConnection connection = .ok c.connection)
    (hencoding : normalizeEncoding textDecoder encoding = .ok c.encoding)
    (hreceive : normalizeReceive receive = .ok c.receive)
    (hremember : orDefault (raw.get (js "remember")) (.boolean true) = .boolean c.remember)
    (hmaxTabs : orDefault (raw.get (js "maxTabs")) (.number (.infinity false)) = c.maxTabs.value) :
    normalizeConfiguration textDecoder (.string c.name.val) (.object raw) = .ok c := by
  have hobject : ∀ (fields : JsFields) (argumentName : String),
    requireObject (.object fields) argumentName = .ok fields := fun _ _ => rfl
  have hoptional : ∀ (fields : JsFields) (argumentName : String),
    optionalObject (.object fields) argumentName = .ok fields := fun _ _ => rfl
  simp only [normalizeConfiguration, validateName_string, hobject, hoptional, hserialFields,
    hconnectionFields, hencodingFields,
    hreceiveFields, hdevice, hserial, hconnection, hencoding, hreceive, hremember, hmaxTabs,
    requireBoolean_boolean,
    requireIntegerOrInfinity_value, bind, Except.bind, pure, Except.pure]

/-- A configuration is read back from its options, whichever way the limits were given. -/
theorem normalizeConfiguration_fields {c : NormalizedConfiguration}
    {maxAttempts remember maxTabs : JsTree}
    (hlabel : c.encoding.encoding ≠ [])
    (hsame : textDecoder c.encoding.encoding = some c.encoding.encoding)
    (hmaxAttempts : orDefault maxAttempts
      (.number (.infinity false)) = c.connection.maxAttempts.value)
    (hremember : remember = .boolean c.remember)
    (hmaxTabs : orDefault maxTabs (.number (.infinity false)) = c.maxTabs.value) :
    normalizeConfiguration textDecoder (.string c.name.val)
    (.object (c.fields maxAttempts remember maxTabs)) = .ok c :=
  normalizeConfiguration_of_parts rfl rfl rfl rfl (normalizeDeviceFilter_options c.device)
      (normalizeSerial_fields c.serial)
    (normalizeConnection_fields c.connection hmaxAttempts)
      (normalizeEncoding_fields c.encoding hlabel hsame)
    (normalizeReceive_fields c.receive) (by rw [hremember]; rfl) hmaxTabs

/-- A configuration of which the name and the line speed are given, and nothing else. -/
def defaultConfiguration (name : ConfigurationName) (baudRate : IntegerIn 1 maxBaudRate)
    (encoding : JsString) : NormalizedConfiguration where
  name := name
  device := .auto none
  serial := defaultSerial baudRate
  connection := defaultConnection
  encoding := ⟨encoding, false⟩
  receive := defaultReceive
  remember := true
  maxTabs := .infinity

/-- Every default passes the check of its field. -/
theorem normalizeConfiguration_defaults {encoding : JsString} (name : ConfigurationName)
    (baudRate : IntegerIn 1 maxBaudRate) (hutf8 : textDecoder (js "utf-8") = some encoding) :
    normalizeConfiguration textDecoder (.string name.val)
      (.object [(js "serial", .object [(js "baudRate", .ofNat baudRate.val)])]) =
        .ok (defaultConfiguration name baudRate encoding) := by
  have hother : ∀ field, field ≠ js "serial" → JsFields.get
      [(js "serial", .object [(js "baudRate", .ofNat baudRate.val)])] field = .undefined :=
    fun field hfield => JsTree.get_of_notMem (by simpa using hfield)
  have hencoding : normalizeEncoding textDecoder [] = .ok ⟨encoding, false⟩ := by
    have hlabel : js "utf-8" ≠ [] := by decide
    show (validateEncodingLabel textDecoder (.string (js "utf-8")) _ >>= fun label => _) = _
    simp only [validateEncodingLabel, if_neg hlabel, hutf8, bind, Except.bind]
    rfl
  have hserial : JsFields.get
      [(js "serial", .object [(js "baudRate", .ofNat baudRate.val)])] (js "serial") =
        .object [(js "baudRate", .ofNat baudRate.val)] := rfl
  have hobject : ∀ (fields : JsFields) (argumentName : String),
    requireObject (.object fields) argumentName = .ok fields := fun _ _ => rfl
  have hoptional : ∀ argumentName, optionalObject .undefined argumentName = .ok [] := fun _ => rfl
  simp only [normalizeConfiguration, validateName_string, hobject, hserial, bind, Except.bind]
  rw [hother _ (by decide), hother _ (by decide), hother _ (by decide), hother _ (by decide),
    hother _ (by decide), hother _ (by decide)]
  simp only [hoptional, normalizeSerial_defaults, normalizeConnection_defaults,
    normalizeReceive_defaults, hencoding]
  rfl

theorem toSetupOptions_defined (c : NormalizedConfiguration) :
    orDefault c.connection.maxAttempts.value
    (.number (.infinity false)) = c.connection.maxAttempts.value ∧
      orDefault c.maxTabs.value (.number (.infinity false)) = c.maxTabs.value :=
  ⟨orDefault_of_defined (Limit.value_defined _) _, orDefault_of_defined (Limit.value_defined _) _⟩

theorem bind_eq_ok {α β : Type} {x : Validated α} {f : α → Validated β} {b : β}
    (h : x >>= f = .ok b) :
    ∃ a, x = .ok a ∧ f a = .ok b := by
  cases x with
  | error e => cases h
  | ok a => exact ⟨a, rfl, h⟩

theorem eq_of_validateEncodingLabel {value : JsTree} {argumentName : String} {encoding : JsString}
    (h : validateEncodingLabel textDecoder value argumentName = .ok encoding) :
    ∃ label, textDecoder label = some encoding := by
  cases value with
  | string label =>
    by_cases hlabel : label = []
    · rw [validateEncodingLabel, if_pos hlabel] at h
      cases h
    · rw [validateEncodingLabel, if_neg hlabel] at h
      cases hreported : textDecoder label with
      | none =>
        rw [hreported] at h
        cases h
      | some reported =>
        rw [hreported] at h
        cases h
        exact ⟨label, hreported⟩
  | _ => cases h

/-- What was accepted: the name as it was given, and an encoding that `TextDecoder` reported. -/
theorem eq_of_normalizeConfiguration {name options : JsTree} {c : NormalizedConfiguration}
    (h : normalizeConfiguration textDecoder name options = .ok c) :
    name = .string c.name.val ∧ ∃ label, textDecoder label = some c.encoding.encoding := by
  obtain ⟨validName, hname, h⟩ := bind_eq_ok h
  obtain ⟨raw, _, h⟩ := bind_eq_ok h
  obtain ⟨_, _, h⟩ := bind_eq_ok h
  obtain ⟨_, _, h⟩ := bind_eq_ok h
  obtain ⟨_, _, h⟩ := bind_eq_ok h
  obtain ⟨_, _, h⟩ := bind_eq_ok h
  obtain ⟨_, _, h⟩ := bind_eq_ok h
  obtain ⟨_, _, h⟩ := bind_eq_ok h
  obtain ⟨_, _, h⟩ := bind_eq_ok h
  obtain ⟨_, _, h⟩ := bind_eq_ok h
  obtain ⟨encoding, hencoding, h⟩ := bind_eq_ok h
  obtain ⟨_, _, h⟩ := bind_eq_ok h
  obtain ⟨_, _, h⟩ := bind_eq_ok h
  obtain rfl := Except.ok.inj h
  refine ⟨eq_of_validateName hname, ?_⟩
  obtain ⟨label, hlabel, hencoding⟩ := bind_eq_ok hencoding
  obtain ⟨_, _, hencoding⟩ := bind_eq_ok hencoding
  obtain rfl := Except.ok.inj hencoding
  exact eq_of_validateEncodingLabel hlabel

/-- **A configuration survives being turned back into options.** -/
theorem normalizeConfiguration_toSetupOptions
    (hlabels : ∀ label encoding, textDecoder label = some encoding →
      encoding ≠ [] ∧ textDecoder encoding = some encoding)
    {name options : JsTree} {c : NormalizedConfiguration}
    (h : normalizeConfiguration textDecoder name options = .ok c) :
    normalizeConfiguration textDecoder name (toSetupOptions c) = .ok c := by
  obtain ⟨rfl, label, hlabel⟩ := eq_of_normalizeConfiguration h
  obtain ⟨hne, hsame⟩ := hlabels label _ hlabel
  obtain ⟨hmaxAttempts, hmaxTabs⟩ := toSetupOptions_defined c
  exact normalizeConfiguration_fields hne hsame hmaxAttempts rfl hmaxTabs

/-! ### through JSON -/

theorem Limit.reread_storable {max : ℕ} (n : Limit max) : n.storable.reread = n.storable := by
  cases n <;> rfl

theorem toDeviceOptions_reread (device : NormalizedDeviceFilter) :
    (toDeviceOptions device).reread = toDeviceOptions device := by
  cases device with
  | resolved device => cases device <;> rfl
  | any => rfl
  | auto resolved =>
    cases resolved with
    | none => rfl
    | some device => cases device <;> rfl

section kept

variable {fields fields' : JsFields} (h : ∀ name, fields.get name = fields'.get name)

include h

theorem normalizeSerial_congr : normalizeSerial fields = normalizeSerial fields' := by
  simp only [normalizeSerial, h]

theorem normalizeConnection_congr : normalizeConnection fields = normalizeConnection fields' := by
  simp only [normalizeConnection, h]

theorem normalizeReceive_congr : normalizeReceive fields = normalizeReceive fields' := by
  simp only [normalizeReceive, h]

theorem normalizeEncoding_congr :
    normalizeEncoding textDecoder fields = normalizeEncoding textDecoder fields' := by
  simp only [normalizeEncoding, h]

end kept

theorem NormalizedSerialSettings.fields_kept (serial : NormalizedSerialSettings) :
    ∀ field ∈ serial.fields, field.2.reread = field.2 := by
  simp only [NormalizedSerialSettings.fields, List.forall_mem_cons, Enumeration.kept, true_and]
  exact ⟨rfl, rfl, List.forall_mem_nil _⟩

theorem NormalizedConnectionSettings.fields_kept (connection : NormalizedConnectionSettings)
    {maxAttempts : JsTree}
    (hkept : maxAttempts.reread = maxAttempts) :
    ∀ field ∈ connection.fields maxAttempts, field.2.reread = field.2 := by
  simp only [NormalizedConnectionSettings.fields, List.forall_mem_cons, hkept, true_and]
  exact ⟨rfl, rfl, rfl, rfl, rfl, rfl, rfl, rfl, rfl, List.forall_mem_nil _⟩

theorem NormalizedEncodingSettings.fields_kept (encoding : NormalizedEncodingSettings) :
    ∀ field ∈ encoding.fields, field.2.reread = field.2 := by
  simp only [NormalizedEncodingSettings.fields, List.forall_mem_cons]
  exact ⟨rfl, rfl, List.forall_mem_nil _⟩

theorem NormalizedReceiveSettings.fields_kept (receive : NormalizedReceiveSettings) :
    ∀ field ∈ receive.fields, field.2.reread = field.2 := by
  simp only [NormalizedReceiveSettings.fields, List.forall_mem_cons]
  exact ⟨rfl, rfl, List.forall_mem_nil _⟩

theorem NormalizedSerialSettings.fields_nodup (serial : NormalizedSerialSettings) :
    (serial.fields.map Prod.fst).Nodup := by
  simp only [NormalizedSerialSettings.fields, List.map_cons, List.map_nil]
  decide

theorem NormalizedConnectionSettings.fields_nodup (connection : NormalizedConnectionSettings)
    (maxAttempts : JsTree) :
    ((connection.fields maxAttempts).map Prod.fst).Nodup := by
  simp only [NormalizedConnectionSettings.fields, List.map_cons, List.map_nil]
  decide

theorem NormalizedEncodingSettings.fields_nodup (encoding : NormalizedEncodingSettings) :
    (encoding.fields.map Prod.fst).Nodup := by
  simp only [NormalizedEncodingSettings.fields, List.map_cons, List.map_nil]
  decide

theorem NormalizedReceiveSettings.fields_nodup (receive : NormalizedReceiveSettings) :
    (receive.fields.map Prod.fst).Nodup := by
  simp only [NormalizedReceiveSettings.fields, List.map_cons, List.map_nil]
  decide

theorem NormalizedConfiguration.fields_nodup (c : NormalizedConfiguration)
    (maxAttempts remember maxTabs : JsTree) :
    ((c.fields maxAttempts remember maxTabs).map Prod.fst).Nodup := by
  simp only [NormalizedConfiguration.fields, List.map_cons, List.map_nil]
  decide

/-- A remembered configuration is read back from what is stored of it. -/
theorem normalizeConfiguration_stored {c : NormalizedConfiguration}
    (hlabel : c.encoding.encoding ≠ [])
    (hsame : textDecoder c.encoding.encoding = some c.encoding.encoding)
    (hremember : c.remember = true) :
    normalizeConfiguration textDecoder (.string c.name.val) (toStorable c).throughJson = .ok c := by
  have hget : ∀ name, JsFields.get _ name = _ := JsTree.get_propertiesThroughJson
    (c.fields_nodup c.connection.maxAttempts.storable (.boolean true) c.maxTabs.storable)
  have hserial := JsTree.get_of_kept c.serial.fields_nodup c.serial.fields_kept
  have hconnection := JsTree.get_of_kept (c.connection.fields_nodup _)
    (c.connection.fields_kept c.connection.maxAttempts.reread_storable)
  have hencoding := JsTree.get_of_kept c.encoding.fields_nodup c.encoding.fields_kept
  have hreceive := JsTree.get_of_kept c.receive.fields_nodup c.receive.fields_kept
  refine normalizeConfiguration_of_parts (hget _) (hget _) (hget _) (hget _) ?_ ?_ ?_ ?_ ?_ ?_ ?_
  · rw [hget]
    exact (congrArg _ (toDeviceOptions_reread c.device)).trans
      (normalizeDeviceFilter_options c.device)
  · rw [normalizeSerial_congr hserial, normalizeSerial_fields]
  · rw [normalizeConnection_congr hconnection,
      normalizeConnection_fields c.connection (orDefault_storable _)]
  · rw [normalizeEncoding_congr hencoding, normalizeEncoding_fields c.encoding hlabel hsame]
  · rw [normalizeReceive_congr hreceive, normalizeReceive_fields]
  · rw [hget, hremember]
    rfl
  · rw [hget]
    exact (congrArg (orDefault · _) c.maxTabs.reread_storable).trans (orDefault_storable _)

end roundTrip

end SerialBroker
