import SerialBroker.Protocol.Decode

/-!
# The grammar of the protocol

What it means that a value that arrived forms a message: an object with this protocol version, the
type, and every declared field of that type as the message has it. The error of a successful answer
is not looked at, and a payload may be a view or a buffer. What a nested structure must be, an error
or a report, is a parameter: as the decoder judges it, as the limits and the types state it, or by
its shape alone. `decodeMessage` accepts exactly the values that form a message with the nested
structures judged as the decoder does, and gives that message.
-/

namespace SerialBroker.Wire

/-- A payload, as a view or as a buffer. -/
def IsPayload (h : JsHeap) (v : JsValue) (payload : Payload) : Prop :=
  ∃ o, h.object? v = some o ∧
    ((∃ view, o.kind = .uint8Array view ∧ view.bytes = payload.val.bytes) ∨
      o.kind = .arrayBuffer payload.val.bytes)

def IsDevice (h : JsHeap) (v : JsValue) (device : StatusDevice) : Prop :=
  ∃ o, record? h v = some o ∧ match device with
    | .chosen (.usb vendorId productId) =>
      o.get (js "kind") = .string (js "usb") ∧ o.get (js "vendorId") = .number vendorId ∧
        o.get (js "productId") = .number productId
    | .chosen .nonUsb => o.get (js "kind") = .string (js "non-usb")
    | .any => o.get (js "kind") = .string (js "any")
    | .auto => o.get (js "kind") = .string (js "auto")

def LogLevel.name : LogLevel → JsString
  | .warn => js "warn"
  | .error => js "error"

def optionalString (s : Option JsString) : JsValue := (s.map JsValue.string).getD .undefined

/-- What the nested structures of a message must be. -/
structure Judgement where
  isError : JsHeap → JsValue → Prop
  isReport : JsHeap → JsValue → Prop

/-- A report as its type declares it: every entry of its list is a configuration, and a hole is
none. -/
def isDeclaredReport : JsHeap → JsValue → Bool := isReportListing JsObject.elements

namespace Judgement

/-- As the decoder judges: by what the walk counts, and holes skipped. -/
def walked : Judgement where
  isError h v := IsTreeWithin (walkedPart h) v maxErrorValues maxErrorCharacters ∧
    isSerializedError h v = true
  isReport h v := IsTreeWithin (walkedPart h) v maxReportValues maxReportCharacters ∧
    isParticipantDiagnostics h v = true

/-- As the limits and the types state it. -/
def stated : Judgement where
  isError h v := IsTreeWithin (statedPart h) v maxErrorValues maxErrorCharacters ∧
    isSerializedError h v = true
  isReport h v := IsTreeWithin (statedPart h) v maxReportValues maxReportCharacters ∧
    isDeclaredReport h v = true

end Judgement

section

variable (judgement : Judgement) (h : JsHeap)

/-- The declared fields of a message, besides those of every message. -/
def FormsBody (o : JsObject) : Body → Prop
  | .hello configNames =>
    ∃ array, h.object? (o.get (js "configNames")) = some array ∧ array.isArray = true ∧
      array.elements = configNames.val.map fun name => .string name
  | .welcome worker => o.get (js "worker") = .string worker
  | .workerLog record =>
    o.get (js "level") = .string record.level.name ∧ o.get (js "message") = .string record.message ∧
      ∃ fields, record? h (o.get (js "fields")) = some fields ∧
        fields.properties = record.fields.map fun field => (field.1, field.2.value)
  | .ownerClaimed configName term maxTabs =>
    o.get (js "configName") = .string configName ∧ o.get (js "term") = .string term ∧
      o.get (js "maxTabs") = .number maxTabs
  | .ownerReleased configName term =>
    o.get (js "configName") = .string configName ∧ o.get (js "term") = .string term
  | .writeRequest configName requestId payload term =>
    o.get (js "configName") = .string configName ∧ o.get (js "requestId") = .string requestId ∧
      IsPayload h (o.get (js "payload")) payload ∧ o.get (js "term") = .string term
  | .writeReady configName requestId term =>
    o.get (js "configName") = .string configName ∧ o.get (js "requestId") = .string requestId ∧
      o.get (js "term") = .string term
  | .writeApproval configName requestId term approved =>
    o.get (js "configName") = .string configName ∧ o.get (js "requestId") = .string requestId ∧
      o.get (js "term") = .string term ∧
      o.get (js "approved") = .boolean approved
  | .writeResult configName requestId error term =>
    o.get (js "configName") = .string configName ∧ o.get (js "requestId") = .string requestId ∧
      o.get (js "ok") = .boolean error.isNone ∧
        (∀ e, error = some e → o.get (js "error") = e ∧ judgement.isError h e) ∧
      o.get (js "term") = optionalString (term.map Subtype.val)
  | .dataReceived configName payload text timestamp =>
    o.get (js "configName") = .string configName ∧ IsPayload h (o.get (js "payload")) payload ∧
      o.get (js "text") = optionalString (text.map Subtype.val) ∧
        o.get (js "timestamp") = .number timestamp
  | .dataSent configName payload originClientId timestamp =>
    o.get (js "configName") = .string configName ∧ IsPayload h (o.get (js "payload")) payload ∧
      o.get (js "originClientId") = .string originClientId ∧
        o.get (js "timestamp") = .number timestamp
  | .status configName status maxTabs device term timestamp =>
    o.get (js "configName") = .string configName ∧
      o.get (js "status") = .string (SerialBrokerStatus.name status) ∧
      o.get (js "maxTabs") = .number maxTabs ∧ IsDevice h (o.get (js "device")) device ∧
        o.get (js "term") = .string term ∧
      o.get (js "timestamp") = .number timestamp
  | .error configName error timestamp =>
    o.get (js "configName") = .string configName ∧ o.get (js "error") = error ∧
      judgement.isError h error ∧
      o.get (js "timestamp") = .number timestamp
  | .statusRequest configName retry device =>
    o.get (js "configName") = .string configName ∧ o.get (js "retry") = .boolean retry ∧
        match device with
      | some device => IsDevice h (o.get (js "device")) (.chosen device)
      | none => o.get (js "device") = .undefined
  | .diagnosticsRequest requestId => o.get (js "requestId") = .string requestId
  | .diagnosticsReport requestId report =>
    o.get (js "requestId") = .string requestId ∧ o.get (js "report") = report ∧
      judgement.isReport h report

/-- A value that arrived carries this protocol version and forms the message. -/
def Forms (raw : JsValue) (m : Message) : Prop :=
  ∃ o, record? h raw = some o ∧ o.get (js "v") = .number protocolVersion ∧
    o.get (js "from") = .string m.sender ∧
    o.get (js "to") = .string m.target ∧ o.get (js "type") = .string m.body.type.name ∧
      FormsBody judgement h o m.body

end

/-! ### the readers -/

namespace FieldReader

variable {r : FieldReader} {α β : Type}

theorem bind_eq_ok {x : Decoded α} {f : α → Decoded β} {b : β} :
    (x >>= f) = .ok b ↔ ∃ a, x = .ok a ∧ f a = .ok b := by
  cases x with
  | error failure => exact ⟨fun h => (nomatch h), fun ⟨_, h, _⟩ => (nomatch h)⟩
  | ok a => exact ⟨fun h => ⟨a, rfl, h⟩, fun ⟨_, ha, h⟩ => Except.ok.inj ha ▸ h⟩

theorem map_eq_ok {x : Decoded α} {f : α → β} {b : β} :
    f <$> x = .ok b ↔ ∃ a, x = .ok a ∧ f a = b := by
  cases x with
  | error failure => exact ⟨fun h => (nomatch h), fun ⟨_, h, _⟩ => (nomatch h)⟩
  | ok a =>
    exact ⟨fun h => ⟨a, rfl, Except.ok.inj h⟩, fun ⟨_, ha, h⟩ =>
      Except.ok.inj ha ▸ congrArg Except.ok h⟩

theorem pure_eq_ok {a b : α} : (pure a : Decoded α) = .ok b ↔ a = b :=
  ⟨Except.ok.inj, congrArg Except.ok⟩

@[simp] theorem malformed_ne_ok {field : String} {a : α} :
    (r.malformed field : Decoded α) = .ok a ↔ False := ⟨nofun, nofun⟩

@[simp] theorem exceeded_ne_ok {field limit : String} {a : α} :
    (r.exceeded field limit : Decoded α) = .ok a ↔ False := ⟨nofun, nofun⟩

theorem found_eq_ok {field : String} {o : Option α} {a : α} :
    r.found field o = .ok a ↔ o = some a := by
  cases o with
  | none => simp [found]
  | some b => simp [found]

theorem boundedValue_eq_ok {field limit : String} {maxLength : Nat} {v : JsValue}
    {s : BoundedString maxLength} :
    r.boundedValue field maxLength limit v = .ok s ↔ v = .string s := by
  obtain ⟨s, hs, hlength⟩ := s
  cases v with
  | string s' =>
    simp only [boundedValue]
    constructor
    · intro h
      split at h
      · split at h
        · exact congrArg JsValue.string (congrArg Subtype.val (Except.ok.inj h))
        · exact nomatch h
      · exact nomatch h
    · intro h
      obtain rfl := JsValue.string.inj h
      rw [dif_pos hs, dif_pos hlength]
  | _ => simp [boundedValue]

theorem identifier_eq_ok {field : String} {s : Identifier} :
    r.identifier field = .ok s ↔ r.raw.get (js field) = .string s :=
  boundedValue_eq_ok

theorem configName_eq_ok {s : ConfigName} :
    r.configName = .ok s ↔ r.raw.get (js "configName") = .string s := boundedValue_eq_ok

theorem optionalIdentifier_eq_ok {field : String} {s : Option Identifier} :
    r.optionalIdentifier field = .ok s ↔ r.raw.get (js field) = optionalString
    (s.map Subtype.val) := by
  unfold optionalIdentifier
  split
  · next habsent =>
    rw [show r.raw.get (js field) = _ from habsent]
    cases s <;> simp [optionalString]
  · next hpresent =>
    rw [map_eq_ok]
    constructor
    · rintro ⟨s, hs, rfl⟩
      exact identifier_eq_ok.mp hs
    · intro hs
      cases s with
      | none => exact absurd hs hpresent
      | some s => exact ⟨s, identifier_eq_ok.mpr hs, rfl⟩

theorem names_eq_ok {field : String} {values : List JsValue}
    {names : {names : List ConfigName // names.length = values.length}} :
    r.names field values = .ok names ↔ values = names.val.map fun name => .string name := by
  induction values with
  | nil =>
    obtain ⟨names, hlength⟩ := names
    obtain rfl := List.length_eq_zero_iff.mp hlength
    exact ⟨fun _ => rfl, fun _ => rfl⟩
  | cons value values ih =>
    simp only [FieldReader.names, bind_eq_ok, boundedValue_eq_ok]
    constructor
    · rintro ⟨name, rfl, rest, hrest, h⟩
      rw [← Except.ok.inj h, List.map_cons, ← ih.mp hrest]
    · intro h
      obtain ⟨names, hlength⟩ := names
      cases names with
      | nil => exact nomatch hlength
      | cons name names =>
        obtain ⟨hname, hnames⟩ := List.cons.inj h
        exact ⟨name, hname, ⟨names, Nat.succ.inj hlength⟩, ih.mpr hnames, rfl⟩

theorem nameList_eq_ok {field : String}
    {names : {names : List ConfigName // names.length ≤ maxHelloConfigurations}} :
    r.nameList field = .ok names ↔ ∃ array, r.heap.object?
    (r.raw.get (js field)) = some array ∧ array.isArray = true ∧
      array.elements = names.val.map fun name => .string name := by
  unfold nameList
  cases hfind : (r.heap.object? (r.field field)).filter JsObject.isArray with
  | none =>
    simp only [malformed_ne_ok, false_iff]
    rintro ⟨array, hobject, harray, -⟩
    rw [show r.heap.object? (r.field field) = some array from hobject] at hfind
    simp [harray] at hfind
  | some array =>
    obtain ⟨hobject, harray⟩ := Option.filter_eq_some_iff.mp hfind
    have hobject : r.heap.object? (r.raw.get (js field)) = some array := hobject
    dsimp only
    constructor
    · intro h
      split at h
      · obtain ⟨names', hnames, h⟩ := bind_eq_ok.mp h
        refine ⟨array, hobject, harray, ?_⟩
        rw [← Except.ok.inj h]
        exact names_eq_ok.mp hnames
      · exact nomatch h
    · rintro ⟨array', hobject', -, helements⟩
      obtain rfl := Option.some.inj (hobject.symm.trans hobject')
      have hlength : names.val.length = array.elements.length := by rw [helements, List.length_map]
      rw [dif_pos (hlength ▸ names.property), bind_eq_ok]
      exact ⟨⟨names.val, hlength⟩, names_eq_ok.mpr helements, rfl⟩

theorem payloadOf_eq_ok {view : Uint8Array} {payload : Payload} :
    r.payloadOf view = .ok payload ↔ view.bytes = payload.val.bytes := by
  obtain ⟨bytes, hspans, hlength⟩ := payload
  unfold payloadOf
  constructor
  · intro h
    split at h
    · split at h
      · exact congrArg (fun p : Payload => p.val.bytes) (Except.ok.inj h)
      · exact congrArg (fun p : Payload => p.val.bytes) (Except.ok.inj h)
    · exact nomatch h
  · intro h
    have hbytes : bytes = .ofBytes view.bytes := by
      rw [Uint8Array.eq_ofBytes hspans]
      exact congrArg Uint8Array.ofBytes h.symm
    subst hbytes
    rw [dif_pos (show view.bytes.length ≤ maxPayloadBytes from hlength)]
    split
    · next hspans' => exact congrArg Except.ok (Subtype.ext (Uint8Array.eq_ofBytes hspans'))
    · rfl

theorem payload_eq_ok {payload : Payload} :
    r.payload = .ok payload ↔ IsPayload r.heap (r.raw.get (js "payload")) payload := by
  unfold FieldReader.payload IsPayload
  rw [show r.raw.get (js "payload") = r.field "payload" from rfl]
  cases r.heap.object? (r.field "payload") with
  | none => simp
  | some o =>
    obtain ⟨kind, properties⟩ := o
    cases kind with
    | uint8Array view => simp [payloadOf_eq_ok]
    | arrayBuffer bytes => simp [payloadOf_eq_ok, Uint8Array.ofBytes]
    | _ => simp

theorem finiteNumber?_eq_some {v : JsValue} {n : FiniteNumber} :
    finiteNumber? v = some n ↔ v = .number n := by
  obtain ⟨n, hn⟩ := n
  cases v <;> simp [finiteNumber?]
  rintro rfl
  exact hn

theorem tabLimit?_eq_some {v : JsValue} {n : TabLimit} : tabLimit? v = some n ↔ v = .number n := by
  obtain ⟨n, hn⟩ := n
  cases v <;> simp [tabLimit?]
  rintro rfl
  exact hn

theorem usbId?_eq_some {v : JsValue} {n : UsbId} : usbId? v = some n ↔ v = .number n := by
  obtain ⟨n, hn⟩ := n
  cases v <;> simp [usbId?]
  rintro rfl
  exact hn

theorem status?_eq_some {v : JsValue} {status : SerialBrokerStatus} :
    status? v = some status ↔ v = .string (SerialBrokerStatus.name status) := by
  cases v with
  | string s =>
    rw [JsValue.string.injEq]
    constructor
    · intro h
      have hname := List.find?_some (p := fun status =>
        decide (SerialBrokerStatus.name status = s)) h
      exact (of_decide_eq_true hname).symm
    · rintro rfl
      cases status <;> decide
  | _ => simp [status?]

theorem timestamp_eq_ok {n : FiniteNumber} :
    r.timestamp = .ok n ↔ r.raw.get (js "timestamp") = .number n :=
  found_eq_ok.trans finiteNumber?_eq_some

theorem optionalText_eq_ok {text : Option Text} :
    r.optionalText = .ok text ↔ r.raw.get (js "text") = optionalString (text.map Subtype.val) := by
  unfold optionalText
  rw [show r.field "text" = r.raw.get (js "text") from rfl]
  cases r.raw.get (js "text") with
  | undefined => cases text <;> simp [optionalString]
  | string s =>
    cases text with
    | none => simp [optionalString]; split <;> simp
    | some text =>
      obtain ⟨text, htext⟩ := text
      simp only [optionalString, Option.map_some, Option.getD_some, JsValue.string.injEq]
      constructor
      · intro h
        split at h
        · exact congrArg Subtype.val (Option.some.inj (Except.ok.inj h))
        · exact nomatch h
      · rintro rfl
        rw [dif_pos htext]
  | _ => cases text <;> simp [optionalString]

theorem boolean_eq_ok {field : String} {b : Bool} :
    r.boolean field = .ok b ↔ r.raw.get (js field) = .boolean b := by
  unfold FieldReader.boolean
  rw [show r.field field = r.raw.get (js field) from rfl]
  cases r.raw.get (js field) <;> simp

theorem device_eq_ok {device : StatusDevice} :
    r.device = .ok device ↔ IsDevice r.heap (r.raw.get (js "device")) device := by
  unfold FieldReader.device IsDevice
  rw [show r.field "device" = r.raw.get (js "device") from rfl]
  cases record? r.heap (r.raw.get (js "device")) with
  | none => simp
  | some o =>
    simp only [Option.some.injEq, exists_eq_left']
    constructor
    · intro h
      split at h
      · next husb =>
        split at h
        · next hvendor hproduct =>
          obtain rfl := Except.ok.inj h
          exact ⟨husb, usbId?_eq_some.mp hvendor, usbId?_eq_some.mp hproduct⟩
        · exact (malformed_ne_ok.mp h).elim
      · repeat' split at h
        all_goals first
          | (obtain rfl := Except.ok.inj h; assumption)
          | exact (malformed_ne_ok.mp h).elim
    · intro h
      match device, h with
      | .chosen (.usb vendorId productId), ⟨hkind, hvendor, hproduct⟩ =>
        rw [if_pos hkind, usbId?_eq_some.mpr hvendor, usbId?_eq_some.mpr hproduct]
      | .chosen .nonUsb, hkind => rw [hkind, if_neg (by decide), if_pos rfl]
      | .any, hkind => rw [hkind, if_neg (by decide), if_neg (by decide), if_pos rfl]
      | .auto, hkind =>
        rw [hkind, if_neg (by decide), if_neg (by decide), if_neg (by decide), if_pos rfl]

theorem structured_eq_ok {field : String} {budget : StructureBudget}
    {valuesLimit charactersLimit : String}
    {isShaped : JsValue → Bool}
    (hshaped : ∀ v, isShaped v = true → (r.heap.object? v).isSome = true) {v : JsValue} :
    r.structured field budget valuesLimit charactersLimit isShaped = .ok v ↔
      r.raw.get (js field) = v ∧ IsTreeWithin
      (walkedPart r.heap) v budget.values budget.characters ∧ isShaped v = true := by
  unfold structured
  rw [show r.field field = r.raw.get (js field) from rfl]
  generalize r.raw.get (js field) = value
  dsimp only
  constructor
  · intro h
    split at h
    · simp at h
    · simp at h
    · next hnone =>
      split at h
      · next hshape =>
        obtain rfl := Except.ok.inj h
        rw [if_pos (hshaped _ hshape)] at hnone
        exact ⟨rfl, (exceedsStructureBudget_iff ..).mp hnone, hshape⟩
      · simp at h
  · rintro ⟨rfl, htree, hshape⟩
    rw [if_pos (hshaped _ hshape), (exceedsStructureBudget_iff ..).mpr htree]
    dsimp only
    rw [if_pos hshape]

theorem object?_of_isSerializedError {h : JsHeap} {v : JsValue}
    (herror : isSerializedError h v = true) :
    (h.object? v).isSome = true := by
  unfold isSerializedError at herror
  split at herror
  · exact nomatch herror
  · next hobject => rw [hobject]; rfl

theorem object?_of_record? {h : JsHeap} {v : JsValue} {o : JsObject}
    (hrecord : record? h v = some o) :
    h.object? v = some o ∧ o.isArray = false := by
  obtain ⟨hobject, harray⟩ := Option.filter_eq_some_iff.mp hrecord
  exact ⟨hobject, by simpa using harray⟩

theorem object?_of_isParticipantDiagnostics {h : JsHeap} {v : JsValue}
    (hreport : isParticipantDiagnostics h v = true) :
    (h.object? v).isSome = true := by
  unfold isParticipantDiagnostics isReportListing at hreport
  split at hreport
  · exact nomatch hreport
  · next hrecord => rw [(object?_of_record? hrecord).1]; rfl

theorem error_eq_ok {v : JsValue} :
    r.error = .ok v ↔ r.raw.get (js "error") = v ∧ Judgement.walked.isError r.heap v :=
  structured_eq_ok fun _ => object?_of_isSerializedError

theorem report_eq_ok {v : JsValue} :
    r.report = .ok v ↔ r.raw.get (js "report") = v ∧ Judgement.walked.isReport r.heap v :=
  structured_eq_ok fun _ => object?_of_isParticipantDiagnostics

theorem logLevel_eq_ok {level : LogLevel} :
    r.logLevel = .ok level ↔ r.raw.get (js "level") = .string level.name := by
  unfold logLevel
  rw [show r.field "level" = r.raw.get (js "level") from rfl]
  constructor
  · intro h
    repeat' split at h
    all_goals first
      | (obtain rfl := Except.ok.inj h; assumption)
      | exact (malformed_ne_ok.mp h).elim
  · intro h
    cases level with
    | warn => exact if_pos h
    | error =>
      rw [h, if_neg (by decide)]
      exact if_pos rfl

theorem logValue?_eq_some {v : JsValue} {value : LogValue} :
    logValue? v = some value ↔ v = value.value := by
  cases v with
  | number n =>
    cases value with
    | number value =>
      obtain ⟨n', hn⟩ := value
      simp only [logValue?, LogValue.value, JsValue.number.injEq]
      constructor
      · intro h
        split at h
        · exact congrArg Subtype.val (LogValue.number.inj (Option.some.inj h))
        · exact nomatch h
      · rintro rfl
        rw [dif_pos hn]
    | _ => simp [logValue?, LogValue.value]
  | _ => cases value <;> simp [logValue?, LogValue.value]

theorem logEntries_eq_ok {characters : Nat} {hspent : characters ≤ maxLogRecordCharacters}
    {entries : List (JsString × JsValue)}
    {fields : {fields : List (JsString × LogValue) //
      fields.length = entries.length ∧ characters +
        (fields.map logCharacters).sum ≤ maxLogRecordCharacters}} :
    r.logEntries characters hspent entries = .ok fields ↔ entries = fields.val.map fun field =>
      (field.1, field.2.value) := by
  induction entries generalizing characters with
  | nil =>
    obtain ⟨fields, hlength, hsum⟩ := fields
    obtain rfl := List.length_eq_zero_iff.mp hlength
    exact ⟨fun _ => rfl, fun _ => rfl⟩
  | cons entry entries ih =>
    obtain ⟨key, entry⟩ := entry
    simp only [logEntries, bind_eq_ok, found_eq_ok, logValue?_eq_some]
    constructor
    · rintro ⟨value, rfl, h⟩
      split at h
      · obtain ⟨rest, hrest, h⟩ := bind_eq_ok.mp h
        rw [← Except.ok.inj h, List.map_cons, ← ih.mp hrest]
      · exact nomatch h
    · intro h
      obtain ⟨fields, hlength, hsum⟩ := fields
      cases fields with
      | nil => exact nomatch hlength
      | cons field fields =>
        obtain ⟨name, value⟩ := field
        obtain ⟨hfield, hfields⟩ := List.cons.inj h
        obtain ⟨rfl, rfl⟩ := Prod.mk.inj hfield
        simp only [List.map_cons, List.sum_cons] at hsum
        refine ⟨value, rfl, ?_⟩
        rw [dif_pos (by omega), bind_eq_ok]
        exact ⟨⟨fields, Nat.succ.inj hlength, by omega⟩, ih.mpr hfields, rfl⟩

theorem logRecord_eq_ok {record : LogRecord} :
    r.logRecord = .ok record ↔ r.raw.get (js "level") = .string record.level.name ∧ r.raw.get
    (js "message") = .string record.message ∧
      ∃ fields, record? r.heap (r.raw.get (js "fields")) = some fields ∧
        fields.properties = record.fields.map fun field => (field.1, field.2.value) := by
  unfold logRecord
  simp only [bind_eq_ok, logLevel_eq_ok]
  constructor
  · rintro ⟨level, hlevel, message, hmessage, h⟩
    have hmessage := boundedValue_eq_ok.mp hmessage
    split at h
    · exact nomatch h
    · next fields hfields =>
      split at h
      · obtain ⟨entries, hentries, h⟩ := bind_eq_ok.mp h
        split at h
        · obtain rfl := Except.ok.inj h
          exact ⟨hlevel, hmessage, fields, hfields, logEntries_eq_ok.mp hentries⟩
        · exact nomatch h
      · exact nomatch h
  · rintro ⟨hlevel, hmessage, fields, hfields, hproperties⟩
    have hlength : record.fields.length = fields.properties.length := by
      rw [hproperties, List.length_map]
    refine ⟨record.level, hlevel, record.message, boundedValue_eq_ok.mpr hmessage, ?_⟩
    rw [show record? r.heap (r.field "fields") = some fields from hfields]
    dsimp only
    rw [dif_pos (hlength ▸ record.length_fields), bind_eq_ok]
    refine ⟨⟨record.fields, hlength, record.characters⟩, logEntries_eq_ok.mpr hproperties, ?_⟩
    rw [dif_pos record.named]

theorem chosenDevice_eq_ok {device : Option ChosenDevice} :
    r.chosenDevice = .ok device ↔ match device with
      | some device => IsDevice r.heap (r.raw.get (js "device")) (.chosen device)
      | none => r.raw.get (js "device") = .undefined := by
  unfold chosenDevice
  rw [show r.field "device" = r.raw.get (js "device") from rfl]
  by_cases habsent : r.raw.get (js "device") = .undefined
  · rw [if_pos habsent, habsent]
    cases device with
    | none => simp
    | some device => simp [IsDevice, record?, JsHeap.object?]
  · rw [if_neg habsent, bind_eq_ok]
    constructor
    · rintro ⟨device', hdevice, h⟩
      cases device' with
      | chosen chosen =>
        obtain rfl := Except.ok.inj h
        exact device_eq_ok.mp hdevice
      | any | auto => exact (malformed_ne_ok.mp h).elim
    · intro h
      cases device with
      | none => exact absurd h habsent
      | some device => exact ⟨.chosen device, device_eq_ok.mpr h, rfl⟩

theorem errorUnless_eq_ok {ok : Bool} {error : Option JsValue} :
    r.errorUnless ok = .ok error ↔
      ok = error.isNone ∧ ∀ e, error = some e → r.raw.get
      (js "error") = e ∧ Judgement.walked.isError r.heap e := by
  unfold errorUnless
  cases ok with
  | true =>
    cases error with
    | none => simp
    | some e => simp
  | false =>
    rw [if_neg Bool.false_ne_true, map_eq_ok]
    constructor
    · rintro ⟨e, he, rfl⟩
      exact ⟨rfl, fun e' he' => Option.some.inj he' ▸ error_eq_ok.mp he⟩
    · rintro ⟨hsome, herror⟩
      cases error with
      | none => exact nomatch hsome
      | some e => exact ⟨e, error_eq_ok.mpr (herror e rfl), rfl⟩

theorem forms_of_decodeBody {type : MessageType} {body : Body} (h : r.decodeBody type = .ok body) :
    body.type = type ∧ FormsBody .walked r.heap r.raw body := by
  cases type <;>
    simp only [decodeBody, bind_eq_ok, pure_eq_ok, identifier_eq_ok, configName_eq_ok,
      optionalIdentifier_eq_ok, nameList_eq_ok,
      payload_eq_ok, timestamp_eq_ok, optionalText_eq_ok, boolean_eq_ok, found_eq_ok,
      tabLimit?_eq_some, status?_eq_some,
      logRecord_eq_ok, device_eq_ok, error_eq_ok, report_eq_ok, chosenDevice_eq_ok,
      errorUnless_eq_ok] at h
  case hello =>
    obtain ⟨names, hnames, rfl⟩ := h
    exact ⟨rfl, hnames⟩
  case welcome =>
    obtain ⟨worker, hworker, rfl⟩ := h
    exact ⟨rfl, hworker⟩
  case workerLog =>
    obtain ⟨record, hrecord, rfl⟩ := h
    exact ⟨rfl, hrecord⟩
  case ownerClaimed =>
    obtain ⟨configName, hconfigName, term, hterm, maxTabs, hmaxTabs, rfl⟩ := h
    exact ⟨rfl, hconfigName, hterm, hmaxTabs⟩
  case ownerReleased =>
    obtain ⟨configName, hconfigName, term, hterm, rfl⟩ := h
    exact ⟨rfl, hconfigName, hterm⟩
  case writeRequest =>
    obtain ⟨configName, hconfigName, requestId, hrequestId, payload, hpayload, term, hterm, rfl⟩ :=
      h
    exact ⟨rfl, hconfigName, hrequestId, hpayload, hterm⟩
  case writeReady =>
    obtain ⟨configName, hconfigName, requestId, hrequestId, term, hterm, rfl⟩ := h
    exact ⟨rfl, hconfigName, hrequestId, hterm⟩
  case writeApproval =>
    obtain ⟨configName, hconfigName, requestId, hrequestId, term, hterm, approved,
      happroved, rfl⟩ := h
    exact ⟨rfl, hconfigName, hrequestId, hterm, happroved⟩
  case writeResult =>
    obtain ⟨configName, hconfigName, requestId, hrequestId, ok, hok, error, ⟨rfl, herror⟩, term,
      hterm, rfl⟩ := h
    exact ⟨rfl, hconfigName, hrequestId, hok, herror, hterm⟩
  case dataReceived =>
    obtain ⟨configName, hconfigName, payload, hpayload, timestamp, htimestamp, text, htext, rfl⟩ :=
      h
    exact ⟨rfl, hconfigName, hpayload, htext, htimestamp⟩
  case dataSent =>
    obtain ⟨configName, hconfigName, payload, hpayload, origin, horigin, timestamp,
      htimestamp, rfl⟩ := h
    exact ⟨rfl, hconfigName, hpayload, horigin, htimestamp⟩
  case status =>
    obtain ⟨configName, hconfigName, status, hstatus, maxTabs, hmaxTabs, device, hdevice, term,
      hterm, timestamp, htimestamp, rfl⟩ := h
    exact ⟨rfl, hconfigName, hstatus, hmaxTabs, hdevice, hterm, htimestamp⟩
  case error =>
    obtain ⟨configName, hconfigName, error, ⟨hfield, herror⟩, timestamp, htimestamp, rfl⟩ := h
    exact ⟨rfl, hconfigName, hfield, herror, htimestamp⟩
  case statusRequest =>
    obtain ⟨configName, hconfigName, retry, hretry, device, hdevice, rfl⟩ := h
    exact ⟨rfl, hconfigName, hretry, hdevice⟩
  case diagnosticsRequest =>
    obtain ⟨requestId, hrequestId, rfl⟩ := h
    exact ⟨rfl, hrequestId⟩
  case diagnosticsReport =>
    obtain ⟨requestId, hrequestId, report, ⟨hfield, hreport⟩, rfl⟩ := h
    exact ⟨rfl, hrequestId, hfield, hreport⟩

theorem decodeBody_of_forms {body : Body} (h : FormsBody .walked r.heap r.raw body) :
    r.decodeBody body.type = .ok body := by
  cases body <;>
    simp only [Body.type, decodeBody, bind_eq_ok, pure_eq_ok, identifier_eq_ok, configName_eq_ok,
      optionalIdentifier_eq_ok,
      nameList_eq_ok, payload_eq_ok, timestamp_eq_ok, optionalText_eq_ok, boolean_eq_ok,
      found_eq_ok, tabLimit?_eq_some,
      status?_eq_some, logRecord_eq_ok, device_eq_ok, error_eq_ok, report_eq_ok, chosenDevice_eq_ok,
      errorUnless_eq_ok]
  case hello names => exact ⟨names, h, rfl⟩
  case welcome worker => exact ⟨worker, h, rfl⟩
  case workerLog record => exact ⟨record, h, rfl⟩
  case ownerClaimed => exact ⟨_, h.1, _, h.2.1, _, h.2.2, rfl⟩
  case ownerReleased => exact ⟨_, h.1, _, h.2, rfl⟩
  case writeRequest => exact ⟨_, h.1, _, h.2.1, _, h.2.2.1, _, h.2.2.2, rfl⟩
  case writeReady => exact ⟨_, h.1, _, h.2.1, _, h.2.2, rfl⟩
  case writeApproval => exact ⟨_, h.1, _, h.2.1, _, h.2.2.1, _, h.2.2.2, rfl⟩
  case writeResult =>
    obtain ⟨hconfigName, hrequestId, hok, herror, hterm⟩ := h
    exact ⟨_, hconfigName, _, hrequestId, _, hok, _, ⟨rfl, herror⟩, _, hterm, rfl⟩
  case dataReceived => exact ⟨_, h.1, _, h.2.1, _, h.2.2.2, _, h.2.2.1, rfl⟩
  case dataSent => exact ⟨_, h.1, _, h.2.1, _, h.2.2.1, _, h.2.2.2, rfl⟩
  case status =>
    obtain ⟨hconfigName, hstatus, hmaxTabs, hdevice, hterm, htimestamp⟩ := h
    exact ⟨_, hconfigName, _, hstatus, _, hmaxTabs, _, hdevice, _, hterm, _, htimestamp, rfl⟩
  case error => exact ⟨_, h.1, _, ⟨h.2.1, h.2.2.1⟩, _, h.2.2.2, rfl⟩
  case statusRequest => exact ⟨_, h.1, _, h.2.1, _, h.2.2, rfl⟩
  case diagnosticsRequest => exact ⟨_, h, rfl⟩
  case diagnosticsReport => exact ⟨_, h.1, _, ⟨h.2.1, h.2.2⟩, rfl⟩

end FieldReader

/-- **The decoder and the grammar**: a value is decoded to a message exactly when it forms it. -/
theorem decodeMessage_eq_ok {h : JsHeap} {raw : JsValue} {m : Message} :
    decodeMessage h raw = .ok m ↔ Forms .walked h raw m := by
  unfold decodeMessage Forms
  cases hrecord : record? h raw with
  | none => simp
  | some o =>
    simp only [Option.some.injEq, exists_eq_left']
    by_cases hversion : o.get (js "v") = .number protocolVersion
    · rw [if_neg (not_not_intro hversion)]
      simp only [FieldReader.bind_eq_ok, FieldReader.identifier_eq_ok, FieldReader.target]
      constructor
      · rintro ⟨sender, hsender, target, htarget, hrest⟩
        split at hrest
        · next name hname =>
          split at hrest
          · next type htype =>
            obtain ⟨body, hbody, hm⟩ := FieldReader.bind_eq_ok.mp hrest
            obtain rfl := FieldReader.pure_eq_ok.mp hm
            obtain ⟨rfl, hforms⟩ := FieldReader.forms_of_decodeBody hbody
            refine ⟨hversion, hsender, htarget, ?_, hforms⟩
            rw [hname, MessageType.ofName?_eq_some.mp htype]
          · exact nomatch hrest
        · exact nomatch hrest
      · rintro ⟨-, hsender, htarget, htype, hforms⟩
        refine ⟨m.sender, hsender, m.target, htarget, ?_⟩
        rw [htype]
        dsimp only
        rw [MessageType.ofName?_eq_some.mpr rfl]
        exact FieldReader.bind_eq_ok.mpr ⟨m.body, FieldReader.decodeBody_of_forms hforms, rfl⟩
    · rw [if_pos hversion]
      simp [hversion]

end SerialBroker.Wire
