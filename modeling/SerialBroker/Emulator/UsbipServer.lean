import Mathlib.Data.Int.Notation
import SerialBroker.Emulator.ByteQueue
import SerialBroker.Emulator.UsbipProtocol
import SerialBroker.Lib.StreamHandler

/-!
# A connection to the USB/IP server

`UsbipServer` of the emulator, as the client of one connection drives it: the operations before a
device is imported, the URB commands after it, and the handler of the socket's `data` event, which
takes them off a queue of the bytes received. The device is a parameter: what it does when it is
attached, given a transfer or told to cancel one may change it, complete transfers and throw. What
other connections do, and whether the device is plugged in, stays as it is.

The replies are recorded as what they are encoded from. Over the handler stands a `StreamHandler` on
the flat bytes, whose messages `front` reads; it is stable, and so the handler does not depend on
how the bytes arrive.
-/

namespace SerialBroker.Emulator

/-- `BUS_ID`. -/
def exportedBusId : String := "1-1"

/-- The fields of an exported device that are not constants. -/
structure ExportedDevice where
  vendorId : ℕ
  productId : ℕ
  configurationValue : ℕ
  deriving DecidableEq

/-- A transfer that the device has completed. -/
structure UrbResult where
  seqnum : ℕ
  status : ℤ
  actualLength : ℕ
  data : List UInt8
  deriving DecidableEq

/-- What a call of the device comes to. -/
structure DeviceCall (D : Type) where
  device : D
  completed : List UrbResult
  thrown : Option String

structure EmulatedDevice (D : Type) where
  exported : D → ExportedDevice
  attach : D → DeviceCall D
  submit : D → SubmitCommand → DeviceCall D
  unlink : D → UnlinkCommand → DeviceCall D × ℤ

inductive AttachedSocket
  | thisOne
  | another
  deriving DecidableEq

inductive UsbipReply
  | deviceList (devices : List ExportedDevice)
  | imported (device : ExportedDevice)
  | importRefused
  | submit (result : UrbResult)
  | unlink (seqnum : ℕ) (status : ℤ)
  deriving DecidableEq

inductive ServerEvent
  | deviceListed
  | attached
  | importRefused (reason : String)
  | unlinked (seqnum : ℕ) (wasPending : Bool)
  | protocolError (message : String)
  | serverError (message : String)
  deriving DecidableEq

/-- `UsbipProtocolError`, or any other error. -/
inductive UsbipError
  | protocol (message : String)
  | server (message : String)

/-- What the client of a connection can ask for. -/
inductive UsbipOperation
  | listDevices
  | importDevice (busId : String)
  | urb (command : UrbCommand)
  deriving DecidableEq

/-- The server as one connection meets it. -/
structure UsbipConnection (D : Type) where
  device : D
  isPluggedIn : Bool
  attachedSocket : Option AttachedSocket
  isImported : Bool
  isEnded : Bool
  isDestroyed : Bool
  operations : List UsbipOperation
  replies : List UsbipReply
  events : List ServerEvent

namespace UsbipConnection

variable {D : Type} (device : EmulatedDevice D) (c : UsbipConnection D)

def isClosing : Bool := c.isDestroyed || c.isEnded

def fail (error : UsbipError) : UsbipConnection D :=
  { c with
    isDestroyed := true
    events := c.events ++ [match error with
      | .protocol message => .protocolError message
      | .server message => .serverError message] }

/-- The device after a call, and the replies to the transfers it completed. -/
def afterCall (call : DeviceCall D) : UsbipConnection D :=
  { c with
    device := call.device
    replies := c.replies ++
      if c.attachedSocket = some .thisOne then call.completed.map .submit else [] }

def importRefusal (busId : String) : Option String :=
  if busId ≠ exportedBusId then some ("no device with bus ID \"" ++ busId ++ "\"")
  else if ¬ c.isPluggedIn then some "the device is unplugged"
  else if c.attachedSocket.isSome then some "the device is already imported by another connection"
  else none

/-- The answer to a device list, after which the connection is ended. -/
def listDevices : UsbipConnection D :=
  { c with
    isEnded := true
    replies := c.replies ++ [.deviceList (if c.isPluggedIn then [device.exported c.device] else [])]
    events := c.events ++ [.deviceListed] }

def importDevice (busId : String) : UsbipConnection D × Option UsbipError :=
  match c.importRefusal busId with
  | some reason =>
    ({ c with
      isEnded := true
      replies := c.replies ++ [.importRefused]
      events := c.events ++ [.importRefused reason] }, none)
  | none =>
    let call := device.attach c.device
    let attached := UsbipConnection.afterCall
      { c with
        attachedSocket := some .thisOne
        replies := c.replies ++ [.imported (device.exported c.device)] } call
    match call.thrown with
    | some message => (attached, some (.server message))
    | none => ({ attached with events := attached.events ++ [.attached] }, none)

def performUrb : UrbCommand → UsbipConnection D × Option UsbipError
  | .submit command =>
    let call := device.submit c.device command
    (c.afterCall call, call.thrown.map .server)
  | .unlink command =>
    let call := device.unlink c.device command
    let after := c.afterCall call.1
    match call.1.thrown with
    | some message => (after, some (.server message))
    | none =>
      ({ after with
          replies := after.replies ++ [.unlink command.seqnum call.2]
          events := after.events ++ [.unlinked command.unlinkSeqnum (call.2 < 0)] }, none)

/-- An operation is handled. -/
def perform (operation : UsbipOperation) : UsbipConnection D × Option UsbipError :=
  let c := { c with operations := c.operations ++ [operation] }
  match operation with
  | .listDevices => (c.listDevices device, none)
  | .importDevice busId => c.importDevice device busId
  | .urb command => c.performUrb device command

end UsbipConnection

/-- What `#handleNext` leaves behind, and what it returns or throws. -/
structure Handled (D : Type) where
  connection : UsbipConnection D
  received : ByteQueue
  result : Except UsbipError ℕ

section Server

variable {D : Type} (device : EmulatedDevice D)

/-- The message used this many bytes, unless its handling threw. -/
def Handled.of (performed : UsbipConnection D × Option UsbipError) (received : ByteQueue)
    (length : ℕ) : Handled D :=
  ⟨performed.1, received, match performed.2 with | some error => .error error | none => .ok length⟩

def handleUrb (c : UsbipConnection D) (received : ByteQueue) : Handled D :=
  if received.length < urbHeaderBytes then ⟨c, received, .ok 0⟩
  else
    match received.peek urbHeaderBytes with
    | .error message => ⟨c, received, .error (.server message)⟩
    | .ok (received, header) =>
      match urbCommandLength header with
      | .error message => ⟨c, received, .error (.protocol message)⟩
      | .ok length =>
        if received.length < length then ⟨c, received, .ok 0⟩
        else
          match received.peek length with
          | .error message => ⟨c, received, .error (.server message)⟩
          | .ok (received, bytes) =>
            .of (c.perform device (.urb (decodeUrbCommand bytes))) received length

def unsupportedVersion (version : ℕ) : String :=
  "Unsupported USB/IP version 0x" ++ hex4 version ++ "; this server speaks 0x" ++
    hex4 usbipVersion ++ "."

def handleNext (c : UsbipConnection D) (received : ByteQueue) : Handled D :=
  if c.isImported then handleUrb device c received
  else if received.length < operationHeaderBytes then ⟨c, received, .ok 0⟩
  else
    match received.peek operationHeaderBytes with
    | .error message => ⟨c, received, .error (.server message)⟩
    | .ok (received, bytes) =>
      let header := decodeOperationHeader bytes
      if header.version ≠ usbipVersion then
        ⟨c, received, .error (.protocol (unsupportedVersion header.version))⟩
      else if header.code = opReqDevlist then
        .of (c.perform device .listDevices) received operationHeaderBytes
      else if header.code ≠ opReqImport then
        ⟨c, received, .error (.protocol ("Unknown operation 0x" ++ hex header.code ++ "."))⟩
      else if received.length < operationHeaderBytes + busIdBytes then ⟨c, received, .ok 0⟩
      else
        match received.peek (operationHeaderBytes + busIdBytes) with
        | .error message => ⟨c, received, .error (.server message)⟩
        | .ok (received, bytes) =>
          .of (c.perform device (.importDevice (decodeBusId (bytes.drop operationHeaderBytes))))
            received (operationHeaderBytes + busIdBytes)

/-- `isImported ||= this.#attachedSocket === socket`. -/
def UsbipConnection.noteImport (c : UsbipConnection D) : UsbipConnection D :=
  { c with isImported := c.isImported || decide (c.attachedSocket = some .thisOne) }

/-- The loop of the `data` handler. Every message uses bytes, so as many rounds as there are bytes,
and one, are enough. -/
def handleAll : ℕ → UsbipConnection D → ByteQueue → UsbipConnection D × ByteQueue
  | 0, c, received => (c, received)
  | rounds + 1, c, received =>
    let handled := handleNext device c received
    match handled.result with
    | .error error => (handled.connection.fail error, handled.received)
    | .ok 0 => (handled.connection, handled.received)
    | .ok (consumed + 1) =>
      match handled.received.discard (consumed + 1) with
      | .error message => (handled.connection.fail (.server message), handled.received)
      | .ok received =>
        if handled.connection.isClosing then (handled.connection, received)
          else handleAll rounds handled.connection.noteImport received

/-- The handler of the socket's `data` event. -/
def handleData (s : UsbipConnection D × ByteQueue) (chunk : List UInt8) :
    UsbipConnection D × ByteQueue :=
  if s.1.isClosing then s else handleAll device ((s.2.push chunk).length + 1) s.1 (s.2.push chunk)

/-- A new connection. -/
def accept (d : D) (isPluggedIn isImportedElsewhere : Bool) : UsbipConnection D × ByteQueue :=
  (⟨d, isPluggedIn, if isImportedElsewhere then some .another else none, false, false, false, [],
    [], []⟩, .empty)

end Server

/-! ### what is at the front of the stream -/

/-- What the first bytes are. -/
inductive Front
  | incomplete
  | operation (operation : UsbipOperation) (length : ℕ)
  | invalid (message : String)

def frontUrb (bytes : List UInt8) : Front :=
  if bytes.length < urbHeaderBytes then .incomplete
  else
    match urbCommandLength (bytes.take urbHeaderBytes) with
    | .error message => .invalid message
    | .ok length =>
      if bytes.length < length then .incomplete
        else .operation (.urb (decodeUrbCommand (bytes.take length))) length

def frontOperation (bytes : List UInt8) : Front :=
  if bytes.length < operationHeaderBytes then .incomplete
  else
    let header := decodeOperationHeader (bytes.take operationHeaderBytes)
    if header.version ≠ usbipVersion then .invalid (unsupportedVersion header.version)
    else if header.code = opReqDevlist then .operation .listDevices operationHeaderBytes
    else if header.code ≠ opReqImport then
      .invalid ("Unknown operation 0x" ++ hex header.code ++ ".")
    else if bytes.length < operationHeaderBytes + busIdBytes then .incomplete
    else
      .operation (.importDevice
          (decodeBusId ((bytes.take (operationHeaderBytes + busIdBytes)).drop
          operationHeaderBytes)))
        (operationHeaderBytes + busIdBytes)

def front (isImported : Bool) (bytes : List UInt8) : Front :=
  if isImported then frontUrb bytes else frontOperation bytes

variable {bytes more : List UInt8} {operation : UsbipOperation} {length : ℕ} {isImported : Bool}

theorem take_of_arrived {count : ℕ} (h : ¬ bytes.length < count) :
    (bytes ++ more).take count = bytes.take count :=
  List.take_append_of_le_length (Nat.le_of_not_lt h)

theorem arrived_append {count : ℕ} (h : ¬ bytes.length < count) :
    ¬ (bytes ++ more).length < count := by
  rw [List.length_append]
  omega

theorem frontUrb_append (h : frontUrb bytes ≠ .incomplete) :
    frontUrb (bytes ++ more) = frontUrb bytes := by
  unfold frontUrb at h ⊢
  by_cases hheader : bytes.length < urbHeaderBytes
  · exact absurd (if_pos hheader) h
  · rw [if_neg hheader] at h
    rw [if_neg hheader, if_neg (arrived_append hheader), take_of_arrived hheader]
    cases hlength : urbCommandLength (bytes.take urbHeaderBytes) with
    | error message => rfl
    | ok length =>
      simp only [hlength] at h ⊢
      by_cases hall : bytes.length < length
      · exact absurd (if_pos hall) h
      · rw [if_neg hall, if_neg (arrived_append hall), take_of_arrived hall]

theorem frontOperation_append (h : frontOperation bytes ≠ .incomplete) :
    frontOperation (bytes ++ more) = frontOperation bytes := by
  unfold frontOperation at h ⊢
  by_cases hheader : bytes.length < operationHeaderBytes
  · exact absurd (if_pos hheader) h
  · rw [if_neg hheader] at h
    rw [if_neg hheader, if_neg (arrived_append hheader), take_of_arrived hheader]
    simp only [] at h ⊢
    by_cases hall : bytes.length < operationHeaderBytes + busIdBytes
    · rw [if_pos hall] at h ⊢
      split
      · rfl
      · next hversion =>
        rw [if_neg hversion] at h
        split
        · rfl
        · next hlist =>
          rw [if_neg hlist] at h
          split
          · rfl
          · next himport => exact absurd (if_neg himport) h
    · rw [if_neg hall, if_neg (arrived_append hall), take_of_arrived hall]

/-- What the first bytes are does not depend on what follows them. -/
theorem front_append (h : front isImported bytes ≠ .incomplete) :
    front isImported (bytes ++ more) = front isImported bytes := by
  unfold front at h ⊢
  cases isImported with
  | true => exact frontUrb_append h
  | false => exact frontOperation_append h

theorem frontUrb_length (h : frontUrb bytes = .operation operation length) :
    0 < length ∧ length ≤ bytes.length := by
  unfold frontUrb at h
  by_cases hheader : bytes.length < urbHeaderBytes
  · rw [if_pos hheader] at h
    cases h
  · rw [if_neg hheader] at h
    cases hlength : urbCommandLength (bytes.take urbHeaderBytes) with
    | error message =>
      simp only [hlength] at h
      cases h
    | ok used =>
      simp only [hlength] at h
      by_cases hall : bytes.length < used
      · rw [if_pos hall] at h
        cases h
      · rw [if_neg hall] at h
        cases h
        have hbounds := (urbCommandLength_bounds hlength).1
        unfold urbHeaderBytes at hbounds
        omega

theorem frontOperation_length (h : frontOperation bytes = .operation operation length) :
    0 < length ∧ length ≤ bytes.length := by
  unfold frontOperation at h
  by_cases hheader : bytes.length < operationHeaderBytes
  · rw [if_pos hheader] at h
    cases h
  · rw [if_neg hheader] at h
    simp only [] at h
    split at h
    · cases h
    · split at h
      · cases h
        exact ⟨by decide, Nat.le_of_not_lt hheader⟩
      · split at h
        · cases h
        · by_cases hall : bytes.length < operationHeaderBytes + busIdBytes
          · rw [if_pos hall] at h
            cases h
          · rw [if_neg hall] at h
            cases h
            exact ⟨by decide, Nat.le_of_not_lt hall⟩

theorem front_length (h : front isImported bytes = .operation operation length) :
    0 < length ∧ length ≤ bytes.length := by
  unfold front at h
  cases isImported with
  | true => exact frontUrb_length h
  | false => exact frontOperation_length h

theorem length_of_front_incomplete (h : front isImported bytes = .incomplete) :
    bytes.length < urbHeaderBytes + maxOutTransferBytes := by
  have hbus : operationHeaderBytes + busIdBytes < urbHeaderBytes + maxOutTransferBytes := by decide
  have hheaders : operationHeaderBytes ≤ operationHeaderBytes + busIdBytes := Nat.le_add_right _ _
  unfold front at h
  cases isImported with
  | true =>
    simp only [if_true, frontUrb] at h
    by_cases hheader : bytes.length < urbHeaderBytes
    · omega
    · rw [if_neg hheader] at h
      cases hlength : urbCommandLength (bytes.take urbHeaderBytes) with
      | error message =>
        simp only [hlength] at h
        cases h
      | ok used =>
        simp only [hlength] at h
        by_cases hall : bytes.length < used
        · exact Nat.lt_of_lt_of_le hall (urbCommandLength_bounds hlength).2
        · rw [if_neg hall] at h
          cases h
  | false =>
    by_cases hall : bytes.length < operationHeaderBytes + busIdBytes
    · omega
    · simp only [Bool.false_eq_true, if_false, frontOperation, if_neg hall] at h
      rw [if_neg (by omega)] at h
      split at h
      · cases h
      · split at h
        · cases h
        · split at h <;> cases h

/-! ### the handler on the flat bytes -/

section Handler

variable {D : Type} (device : EmulatedDevice D)

/-- What `#handleNext` makes of the front of the stream. -/
def Handled.ofFront (c : UsbipConnection D) (received : ByteQueue) : Front → Handled D
  | .incomplete => ⟨c, received, .ok 0⟩
  | .operation operation length => .of (c.perform device operation) received length
  | .invalid message => ⟨c, received, .error (.protocol message)⟩

/-- The queue may be cut differently afterwards, with the same bytes. -/
def AnswersFront (c : UsbipConnection D) (received : ByteQueue) (front : Front)
    (handled : Handled D) : Prop :=
  ∃ received', received'.bytes = received.bytes ∧ handled = .ofFront device c received' front

variable {device} {c : UsbipConnection D} {received : ByteQueue}

theorem handleUrb_front :
    AnswersFront device c received (frontUrb received.bytes) (handleUrb device c received) := by
  unfold handleUrb frontUrb
  rw [received.length_bytes]
  by_cases hheader : received.length < urbHeaderBytes
  · exact ⟨received, rfl, by rw [if_pos hheader, if_pos hheader]; rfl⟩
  · obtain ⟨peeked, hpeek, hbytes⟩ := ByteQueue.peek_of_le (Nat.le_of_not_lt hheader)
    rw [if_neg hheader, if_neg hheader, hpeek]
    simp only []
    have hlen : peeked.length = received.length := by
      rw [← peeked.length_bytes, hbytes, received.length_bytes]
    cases hlength : urbCommandLength (received.bytes.take urbHeaderBytes) with
    | error message => exact ⟨peeked, hbytes, rfl⟩
    | ok length =>
      simp only []
      by_cases hall : received.length < length
      · exact ⟨peeked, hbytes, by rw [hlen, if_pos hall, if_pos hall]; rfl⟩
      · obtain ⟨taken, htake, htaken⟩ :=
          ByteQueue.peek_of_le (q := peeked) (hlen ▸ Nat.le_of_not_lt hall)
        refine ⟨taken, htaken.trans hbytes, ?_⟩
        rw [hlen, if_neg hall, if_neg hall, htake, hbytes]
        rfl

variable (device c received) in
theorem handleNext_front : AnswersFront device c received (front c.isImported received.bytes)
    (handleNext device c received) := by
  unfold handleNext front
  cases c.isImported with
  | true => exact handleUrb_front
  | false =>
    rw [if_neg Bool.false_ne_true, if_neg Bool.false_ne_true, frontOperation, received.length_bytes]
    by_cases hheader : received.length < operationHeaderBytes
    · exact ⟨received, rfl, by rw [if_pos hheader, if_pos hheader]; rfl⟩
    · obtain ⟨peeked, hpeek, hbytes⟩ := ByteQueue.peek_of_le (Nat.le_of_not_lt hheader)
      rw [if_neg hheader, if_neg hheader, hpeek]
      simp only []
      have hlen : peeked.length = received.length := by
        rw [← peeked.length_bytes, hbytes, received.length_bytes]
      split
      · exact ⟨peeked, hbytes, rfl⟩
      · split
        · exact ⟨peeked, hbytes, rfl⟩
        · split
          · exact ⟨peeked, hbytes, rfl⟩
          · by_cases hall : received.length < operationHeaderBytes + busIdBytes
            · exact ⟨peeked, hbytes, by rw [hlen, if_pos hall, if_pos hall]; rfl⟩
            · obtain ⟨taken, htake, htaken⟩ :=
                ByteQueue.peek_of_le (q := peeked) (hlen ▸ Nat.le_of_not_lt hall)
              refine ⟨taken, htaken.trans hbytes, ?_⟩
              rw [hlen, if_neg hall, if_neg hall, htake, hbytes]
              rfl

namespace UsbipConnection

variable (device) in
/-- What a message makes of the connection, and how many bytes it takes off the stream. -/
def answer (c : UsbipConnection D) : Front → Option (ℕ × UsbipConnection D)
  | .incomplete => none
  | .operation operation length =>
    let performed := c.perform device operation
    match performed.2 with
    | some error => some (0, performed.1.fail error)
    | none => some (length, if performed.1.isClosing then performed.1 else performed.1.noteImport)
  | .invalid message => some (0, c.fail (.protocol message))

theorem isClosing_fail (c : UsbipConnection D) (error : UsbipError) :
    (c.fail error).isClosing = true := rfl

/-- A message that is handled takes all its bytes off the stream, or ends the connection. -/
theorem length_of_answer {front : Front} {n : ℕ} {c' : UsbipConnection D}
    (h : c.answer device front = some (n, c')) :
    n = 0 ∧ c'.isClosing ∨ ∃ operation, front = .operation operation n := by
  cases front with
  | incomplete => cases h
  | operation operation length =>
    simp only [answer] at h
    cases herror : (c.perform device operation).2 with
    | some error =>
      simp only [herror, Option.some.injEq, Prod.mk.injEq] at h
      refine Or.inl ⟨h.1.symm, ?_⟩
      rw [← h.2]
      exact isClosing_fail _ _
    | none =>
      simp only [herror, Option.some.injEq, Prod.mk.injEq] at h
      exact Or.inr ⟨operation, by rw [h.1]⟩
  | invalid message =>
    simp only [answer, Option.some.injEq, Prod.mk.injEq] at h
    refine Or.inl ⟨h.1.symm, ?_⟩
    rw [← h.2]
    exact isClosing_fail _ _

theorem front_of_answer {front : Front} (h : c.answer device front = none) :
    front = .incomplete := by
  cases front with
  | incomplete => rfl
  | operation operation length =>
    simp only [answer] at h
    cases herror : (c.perform device operation).2 with
    | some error => simp only [herror, reduceCtorEq] at h
    | none => simp only [herror, reduceCtorEq] at h
  | invalid message => simp only [answer, reduceCtorEq] at h

end UsbipConnection

variable (device) in
/-- The connection as a handler of the bytes that arrive on it. -/
def usbipHandler : StreamHandler (UsbipConnection D) UInt8 where
  next c bytes := c.answer device (front c.isImported bytes)
  isClosed := UsbipConnection.isClosing
  length_le h := by
    obtain ⟨rfl, _⟩ | ⟨operation, hfront⟩ := UsbipConnection.length_of_answer h
    · exact Nat.zero_le _
    · exact (front_length hfront).2
  progress h := by
    obtain ⟨_, hclosing⟩ | ⟨operation, hfront⟩ := UsbipConnection.length_of_answer h
    · exact Or.inl hclosing
    · exact Or.inr (front_length hfront).1
  stable more h := by
    rw [front_append fun hincomplete => ?_]
    · exact h
    · rw [hincomplete] at h
      cases h

/-! ### the loop is the handler's -/

/-- The connection and its queue are those of the handler; what is left on a closed connection is
nobody's. -/
structure Represents (s : UsbipConnection D × ByteQueue) (p : UsbipConnection D × List UInt8) :
    Prop where
  connection : s.1 = p.1
  bytes : ¬ s.1.isClosing → s.2.bytes = p.2

theorem Represents.of_closing {s : UsbipConnection D × ByteQueue}
    {p : UsbipConnection D × List UInt8} (hconnection : s.1 = p.1)
    (hclosing : s.1.isClosing) : Represents s p := ⟨hconnection, fun hopen => absurd hclosing hopen⟩

theorem handleAll_represents {rounds : ℕ} (hopen : ¬ c.isClosing)
    (hrounds : received.length < rounds) :
    Represents (handleAll device rounds c received)
    ((usbipHandler device).drain c received.bytes) := by
  induction rounds generalizing c received with
  | zero => exact absurd hrounds (Nat.not_lt_zero _)
  | succ rounds ih =>
    obtain ⟨received', hbytes, hhandled⟩ := handleNext_front device c received
    have hlen : received'.length = received.length := by
      rw [← received'.length_bytes, hbytes, received.length_bytes]
    rw [handleAll, hhandled]
    cases hfront : front c.isImported received.bytes with
    | incomplete =>
      have hnext : (usbipHandler device).next c received.bytes = none := by
        simp only [usbipHandler, hfront, UsbipConnection.answer]
      rw [StreamHandler.drain_of_none hnext]
      exact ⟨rfl, fun _ => hbytes⟩
    | invalid message =>
      have hnext : (usbipHandler device).next c received.bytes = some (0,
          c.fail (.protocol message)) := by
        simp only [usbipHandler, hfront, UsbipConnection.answer]
      have hclosing := UsbipConnection.isClosing_fail c (.protocol message)
      rw [StreamHandler.drain_of_some hopen hnext, StreamHandler.drain_of_closed hclosing]
      exact .of_closing rfl hclosing
    | operation operation length =>
      obtain ⟨hpos, hle⟩ := front_length hfront
      obtain ⟨used, rfl⟩ := Nat.exists_eq_succ_of_ne_zero (Nat.ne_of_gt hpos)
      cases herror : (c.perform device operation).2 with
      | some error =>
        have hnext : (usbipHandler device).next c received.bytes = some (0,
            (c.perform device operation).1.fail error) := by
          simp only [usbipHandler, hfront, UsbipConnection.answer, herror]
        have hclosing := UsbipConnection.isClosing_fail (c.perform device operation).1 error
        rw [StreamHandler.drain_of_some hopen hnext, StreamHandler.drain_of_closed hclosing]
        simp only [Handled.ofFront, Handled.of, herror]
        exact .of_closing rfl hclosing
      | none =>
        rw [received.length_bytes, ← hlen] at hle
        obtain ⟨rest, hdiscard, hrest⟩ := ByteQueue.discard_of_le hle
        rw [hbytes] at hrest
        simp only [Handled.ofFront, Handled.of, herror, Nat.succ_eq_add_one] at hdiscard ⊢
        simp only [hdiscard]
        by_cases hclosing : (c.perform device operation).1.isClosing
        · have hnext : (usbipHandler device).next c received.bytes = some (used + 1,
              (c.perform device operation).1) := by
            simp only [usbipHandler, hfront, UsbipConnection.answer, herror, hclosing, if_true]
          rw [StreamHandler.drain_of_some hopen hnext, StreamHandler.drain_of_closed hclosing,
            if_pos hclosing]
          exact .of_closing rfl hclosing
        · have hnext : (usbipHandler device).next c received.bytes = some (used + 1,
              (c.perform device operation).1.noteImport) := by
            simp only [usbipHandler, hfront, UsbipConnection.answer, herror, hclosing,
              Bool.false_eq_true, if_false]
          rw [StreamHandler.drain_of_some hopen hnext, if_neg hclosing, ← hrest]
          refine ih hclosing ?_
          rw [← rest.length_bytes, hrest, List.length_drop, received.length_bytes]
          omega

theorem handleData_represents {s : UsbipConnection D × ByteQueue}
    {p : UsbipConnection D × List UInt8} (h : Represents s p)
    (chunk : List UInt8) :
    Represents (handleData device s chunk) ((usbipHandler device).receive p chunk) := by
  unfold handleData StreamHandler.receive
  by_cases hclosing : s.1.isClosing
  · rw [if_pos hclosing, StreamHandler.drain_of_closed
      (show (usbipHandler device).isClosed p.1 from h.connection ▸ hclosing)]
    exact .of_closing h.connection hclosing
  · rw [if_neg hclosing, ← h.connection, ← h.bytes hclosing, ← ByteQueue.bytes_push]
    exact handleAll_represents hclosing (Nat.lt_succ_self _)

/-! ### every stream, however it is cut -/

variable (device) in
/-- The connection, and what it keeps unparsed, once these chunks have arrived on it. -/
def serve (d : D) (isPluggedIn isImportedElsewhere : Bool) (chunks : List (List UInt8)) :
    UsbipConnection D × ByteQueue :=
  chunks.foldl (handleData device) (accept d isPluggedIn isImportedElsewhere)

variable (device) in
theorem serve_represents (d : D) (isPluggedIn isImportedElsewhere : Bool)
    (chunks : List (List UInt8)) :
    Represents (serve device d isPluggedIn isImportedElsewhere chunks)
      ((usbipHandler device).drain (accept d isPluggedIn isImportedElsewhere).1
        chunks.flatten) := by
  have hinit : (usbipHandler device).drain (accept d isPluggedIn isImportedElsewhere).1
      [] = ((accept d isPluggedIn isImportedElsewhere).1, []) :=
    StreamHandler.drain_of_none rfl
  have hfold : ∀ (chunks : List (List UInt8)) (s : UsbipConnection D × ByteQueue)
      (p : UsbipConnection D × List UInt8), Represents s p →
      Represents (chunks.foldl (handleData device) s)
        (chunks.foldl (usbipHandler device).receive p) := by
    intro chunks
    induction chunks with
    | nil => exact fun _ _ h => h
    | cons chunk chunks ih => exact fun s p h => ih _ _ (handleData_represents h chunk)
  have hreceived :=
    StreamHandler.foldl_receive (h := usbipHandler device)
    (s := (accept d isPluggedIn isImportedElsewhere).1) (l := []) chunks
  rw [hinit, List.nil_append] at hreceived
  rw [← hreceived]
  exact hfold chunks _ _ ⟨rfl, fun _ => rfl⟩

/-- **The server does not depend on how bytes arrive**, and keeps less than one largest command
unparsed on an open connection. -/
theorem chunks_do_not_matter (device : EmulatedDevice D) (d : D)
    (isPluggedIn isImportedElsewhere : Bool) (chunks : List (List UInt8)) :
    (serve device d isPluggedIn isImportedElsewhere chunks).1 =
      (serve device d isPluggedIn isImportedElsewhere [chunks.flatten]).1 ∧
      (¬ (serve device d isPluggedIn isImportedElsewhere chunks).1.isClosing →
        (serve device d isPluggedIn isImportedElsewhere chunks).2.length <
          urbHeaderBytes + maxOutTransferBytes) := by
  have hchunks := serve_represents device d isPluggedIn isImportedElsewhere chunks
  have hwhole := serve_represents device d isPluggedIn isImportedElsewhere [chunks.flatten]
  rw [List.flatten_singleton] at hwhole
  refine ⟨hchunks.connection.trans hwhole.connection.symm, fun hopen => ?_⟩
  rw [← ByteQueue.length_bytes, hchunks.bytes hopen]
  obtain hclosed | hnext :=
    (usbipHandler device).next_drain (accept d isPluggedIn isImportedElsewhere).1 chunks.flatten
  · rw [← hchunks.connection] at hclosed
    exact absurd hclosed hopen
  · exact length_of_front_incomplete (UsbipConnection.front_of_answer hnext)

end Handler

/-- A device that has completed every transfer it is told to cancel. -/
def idleDevice : EmulatedDevice Unit where
  exported _ := ⟨0x1209, 1, 1⟩
  attach d := ⟨d, [], none⟩
  submit d _ := ⟨d, [], none⟩
  unlink d _ := (⟨d, [], none⟩, 0)

/-- The device is imported, and a transfer cancelled. -/
def importAndUnlink : List UInt8 :=
  [1, 0x11, 0x80, 3, 0, 0, 0, 0, 49, 45, 49] ++ List.replicate 29 0 ++ [0, 0, 0, 2, 0, 0, 0, 7] ++
    List.replicate 12 0 ++ [0, 0, 0, 3] ++
    List.replicate 24 0

theorem chunks_do_not_matter_importAndUnlink :
    (serve idleDevice () true false [importAndUnlink]).1.replies = [.imported ⟨0x1209, 1, 1⟩,
      .unlink 7 0] ∧
      (serve idleDevice () true false ([] :: importAndUnlink.map ([·]))).1 =
        (serve idleDevice () true false [importAndUnlink]).1 := by
  refine ⟨by decide +kernel, ?_⟩
  have hflatten : ([] :: importAndUnlink.map ([·])).flatten = importAndUnlink := by decide +kernel
  have hsame := (chunks_do_not_matter idleDevice () true false ([] :: importAndUnlink.map ([·]))).1
  rw [hflatten] at hsame
  exact hsame

end SerialBroker.Emulator
