import SerialBroker.Protocol.Grammar
import SerialBroker.Protocol.StructureWalk

/-!
# Messages posted and decoded

A message as the object that is posted for it, with the fields its type declares and no other. What
is decoded from that object is the message again, so a message can be passed on any number of times.
The nested structures of a message stay what they are where more objects are in the heap.
-/

namespace SerialBroker.Wire

variable {h h' : JsHeap} {v : JsValue} {o : JsObject}

/-! ### structures in a larger heap -/

theorem read_of_extends {r : JsRef} (hext : h.Extends h') (hnode : isTreeNode (h.read r) = true) :
    h'.read r = h.read r := by
  refine hext r fun hdefault => ?_
  rw [hdefault] at hnode
  exact absurd hnode (by decide)

theorem walkedPart_of_extends (hext : h.Extends h') (hv : walkedPart h v ≠ .alien) :
    walkedPart h' v = walkedPart h v := by
  cases v with
  | object r =>
    simp only [walkedPart] at hv ⊢
    split at hv
    · next hnode => rw [read_of_extends hext hnode]
    · exact absurd rfl hv
  | _ => rfl

theorem get_of_extends {r : JsRef} (name : JsString) (hext : h.Extends h')
    (hget : (h.read r).get name ≠ .undefined) :
    h'.read r = h.read r := by
  refine hext r fun hdefault => hget ?_
  rw [hdefault]
  rfl

theorem isSome_object?_of_extends :
    (h'.object? v).isSome = (h.object? v).isSome := by cases v <;> rfl

theorem isSerializedCause_of_extends (hext : h.Extends h') (hcause : isSerializedCause h v = true) :
    isSerializedCause h' v = true := by
  cases v with
  | object r =>
    simp only [isSerializedCause, JsHeap.object?, Bool.and_eq_true] at hcause ⊢
    rw [get_of_extends (js "name") hext fun hundefined =>
      by rw [hundefined] at hcause; exact absurd hcause.1 Bool.false_ne_true]
    exact hcause
  | _ => cases hcause

theorem isSerializedError_of_extends (hext : h.Extends h') (herror : isSerializedError h v = true) :
    isSerializedError h' v = true := by
  cases v with
  | object r =>
    simp only [isSerializedError, JsHeap.object?, Bool.and_eq_true, Bool.or_eq_true,
      decide_eq_true_eq] at herror ⊢
    obtain ⟨hrest, hcause⟩ := herror
    rw [get_of_extends (js "$type") hext fun hundefined =>
      by rw [hundefined] at hrest; exact JsValue.noConfusion hrest.1.1.1.1.1.1.1]
    refine ⟨⟨hrest.1, hrest.2.imp_right fun hcontext => ?_⟩,
      hcause.imp_right (isSerializedCause_of_extends hext)⟩
    exact isSome_object?_of_extends.trans hcontext
  | _ => cases herror

theorem record?_of_extends (name : JsString) (hext : h.Extends h') (hrecord : record? h v = some o)
    (hget : o.get name ≠ .undefined) :
    record? h' v = some o := by
  cases v with
  | object r =>
    obtain ⟨hread, harray⟩ := FieldReader.object?_of_record? hrecord
    obtain rfl : h.read r = o := Option.some.inj hread
    simp [record?, JsHeap.object?, get_of_extends name hext hget, harray]
  | _ => cases hrecord

theorem isReportedConfiguration_of_extends (hext : h.Extends h')
    (hv : isReportedConfiguration h v = true) :
    isReportedConfiguration h' v = true := by
  unfold isReportedConfiguration at hv ⊢
  split at hv
  · next o hrecord =>
    rw [record?_of_extends (js "name") hext hrecord fun hundefined =>
      by rw [hundefined] at hv; exact nomatch hv]
    exact hv
  · exact nomatch hv

theorem isReportListing_of_extends {entries : JsObject → List JsValue} (hext : h.Extends h')
    (hv : isReportListing entries h v = true) : isReportListing entries h' v = true := by
  unfold isReportListing at hv ⊢
  split at hv
  · exact nomatch hv
  · next o hrecord =>
    rw [record?_of_extends (js "clientId") hext hrecord fun hundefined =>
      by rw [hundefined] at hv; exact nomatch hv]
    simp only [Bool.and_eq_true] at hv ⊢
    refine ⟨hv.1, ?_⟩
    have hlist := hv.2
    split at hlist
    · next configurations hobject =>
      obtain ⟨r, hr⟩ : ∃ r, o.get (js "configurations") = .object r := by
        cases hget : o.get (js "configurations") with
        | object r => exact ⟨r, rfl⟩
        | _ => rw [hget] at hobject; exact nomatch hobject
      rw [hr] at hobject ⊢
      obtain rfl : h.read r = configurations := Option.some.inj hobject
      obtain ⟨harray, hall⟩ := Bool.and_eq_true_iff.mp hlist
      have hread := read_of_extends hext (r := r) (by simp [isTreeNode, harray])
      simp only [JsHeap.object?, hread, Bool.and_eq_true, List.all_eq_true]
      exact ⟨harray, fun c hc =>
        isReportedConfiguration_of_extends hext (List.all_eq_true.mp hall c hc)⟩
    · exact nomatch hlist

theorem isError_of_extends (hext : h.Extends h') (hv : Judgement.walked.isError h v) :
    Judgement.walked.isError h' v :=
  ⟨hv.1.mono fun _ => walkedPart_of_extends hext, isSerializedError_of_extends hext hv.2⟩

theorem isReport_of_extends (hext : h.Extends h') (hv : Judgement.walked.isReport h v) :
    Judgement.walked.isReport h' v :=
  ⟨hv.1.mono fun _ => walkedPart_of_extends hext, isReportListing_of_extends hext hv.2⟩

/-! ### the object of a message -/

def StatusDevice.object : StatusDevice → JsObject
  | .chosen (.usb vendorId productId) =>
    ⟨.plain, [(js "kind", .string (js "usb")), (js "vendorId", .number vendorId),
      (js "productId", .number productId)]⟩
  | .chosen .nonUsb => ⟨.plain, [(js "kind", .string (js "non-usb"))]⟩
  | .any => ⟨.plain, [(js "kind", .string (js "any"))]⟩
  | .auto => ⟨.plain, [(js "kind", .string (js "auto"))]⟩

/-- The object a field of the body is put in the heap as, if there is one. -/
def Body.nested? : Body → Option JsObject
  | .hello configNames => some ⟨.array (configNames.val.map fun name => some (.string name)), []⟩
  | .workerLog record => some ⟨.plain, record.fields.map fun field => (field.1, field.2.value)⟩
  | .writeRequest _ _ payload _ | .dataReceived _ payload _ _ | .dataSent _ payload _ _ =>
    some ⟨.uint8Array payload.val, []⟩
  | .status _ _ _ device _ _ => some device.object
  | .statusRequest _ _ (some device) => some (StatusDevice.chosen device).object
  | .welcome _ | .ownerClaimed .. | .ownerReleased .. | .writeReady .. | .writeApproval ..
  | .writeResult .. | .error ..
  | .statusRequest _ _ none | .diagnosticsRequest _ | .diagnosticsReport .. => none

/-- The fields of the body, with the nested object under this reference. -/
def Body.fields (nested : JsValue) : Body → List (JsString × JsValue)
  | .hello _ => [(js "configNames", nested)]
  | .welcome worker => [(js "worker", .string worker)]
  | .workerLog record =>
    [(js "level", .string record.level.name), (js "message", .string record.message),
      (js "fields", nested)]
  | .ownerClaimed configName term maxTabs =>
    [(js "configName", .string configName), (js "term", .string term),
      (js "maxTabs", .number maxTabs)]
  | .ownerReleased configName term =>
    [(js "configName", .string configName), (js "term", .string term)]
  | .writeRequest configName requestId _ term =>
    [(js "configName", .string configName), (js "requestId", .string requestId),
      (js "payload", nested), (js "term", .string term)]
  | .writeReady configName requestId term =>
    [(js "configName", .string configName), (js "requestId", .string requestId),
      (js "term", .string term)]
  | .writeApproval configName requestId term approved =>
    [(js "configName", .string configName), (js "requestId", .string requestId),
      (js "term", .string term),
      (js "approved", .boolean approved)]
  | .writeResult configName requestId e term =>
    [(js "configName", .string configName), (js "requestId", .string requestId),
      (js "ok", .boolean e.isNone),
      (js "error", e.getD .undefined), (js "term", optionalString (term.map Subtype.val))]
  | .dataReceived configName _ text timestamp =>
    [(js "configName", .string configName), (js "payload", nested),
      (js "timestamp", .number timestamp),
      (js "text", optionalString (text.map Subtype.val))]
  | .dataSent configName _ originClientId timestamp =>
    [(js "configName", .string configName), (js "payload", nested),
      (js "originClientId", .string originClientId),
      (js "timestamp", .number timestamp)]
  | .status configName value maxTabs _ term timestamp =>
    [(js "configName", .string configName), (js "status", .string (SerialBrokerStatus.name value)),
      (js "maxTabs", .number maxTabs),
      (js "device", nested), (js "term", .string term), (js "timestamp", .number timestamp)]
  | .error configName e timestamp =>
    [(js "configName", .string configName), (js "error", e), (js "timestamp", .number timestamp)]
  | .statusRequest configName retry none =>
    [(js "configName", .string configName), (js "retry", .boolean retry)]
  | .statusRequest configName retry (some _) =>
    [(js "configName", .string configName), (js "retry", .boolean retry), (js "device", nested)]
  | .diagnosticsRequest requestId => [(js "requestId", .string requestId)]
  | .diagnosticsReport requestId report =>
    [(js "requestId", .string requestId), (js "report", report)]

/-- The object that is posted for a message. -/
def Message.object (m : Message) (nested : JsValue) : JsObject :=
  ⟨.plain, (js "type", .string m.body.type.name) :: (js "v", .number protocolVersion) ::
      (js "from", .string m.sender) ::
    (js "to", .string m.target) :: m.body.fields nested⟩

/-- Puts a message in the heap, and refers to it. -/
def Message.post (m : Message) (h : JsHeap) : JsHeap × JsValue :=
  match m.body.nested? with
  | none => h.put (m.object .undefined)
  | some o => (h.put o).1.put (m.object (h.put o).2)

/-- The fields the types of `protocol/messages.ts` declare, beside those of the envelope. -/
def MessageType.declared : MessageType → List JsString
  | hello => [js "configNames"]
  | welcome => [js "worker"]
  | workerLog => [js "level", js "message", js "fields"]
  | ownerClaimed => [js "configName", js "term", js "maxTabs"]
  | ownerReleased => [js "configName", js "term"]
  | writeRequest => [js "configName", js "requestId", js "payload", js "term"]
  | writeReady => [js "configName", js "requestId", js "term"]
  | writeApproval => [js "configName", js "requestId", js "term", js "approved"]
  | writeResult => [js "configName", js "requestId", js "ok", js "error", js "term"]
  | dataReceived => [js "configName", js "payload", js "text", js "timestamp"]
  | dataSent => [js "configName", js "payload", js "originClientId", js "timestamp"]
  | status => [js "configName", js "status", js "maxTabs", js "device", js "term", js "timestamp"]
  | error => [js "configName", js "error", js "timestamp"]
  | statusRequest => [js "configName", js "retry", js "device"]
  | diagnosticsRequest => [js "requestId"]
  | diagnosticsReport => [js "requestId", js "report"]

def envelopeFields : List JsString := [js "type", js "v", js "from", js "to"]

/-- What the nested structures of a message must be, in the heap they are in. -/
def Body.Sound (judgement : Judgement) (h : JsHeap) : Body → Prop
  | .writeResult _ _ (some e) _ | .error _ e _ => judgement.isError h e
  | .diagnosticsReport _ report => judgement.isReport h report
  | .writeResult _ _ none _ | .hello _ | .welcome _ | .workerLog _ | .ownerClaimed ..
  | .ownerReleased .. | .writeRequest ..
  | .writeReady .. | .writeApproval .. | .dataReceived .. | .dataSent .. | .status ..
  | .statusRequest .. | .diagnosticsRequest _ => True

theorem Forms.sound {judgement : Judgement} {raw : JsValue} {m : Message}
    (hforms : Forms judgement h raw m) : m.body.Sound judgement h := by
  obtain ⟨o, -, -, -, -, -, hbody⟩ := hforms
  cases hm : m.body with
  | writeResult configName requestId e term =>
    rw [hm] at hbody
    cases e with
    | none => trivial
    | some e => exact (hbody.2.2.2.1 e rfl).2
  | error configName e timestamp =>
    rw [hm] at hbody
    exact hbody.2.2.1
  | diagnosticsReport requestId report =>
    rw [hm] at hbody
    exact hbody.2.2
  | _ => trivial

theorem Body.Sound.of_extends {body : Body} (hext : h.Extends h') (hsound : body.Sound .walked h) :
    body.Sound .walked h' := by
  cases body with
  | writeResult configName requestId e term =>
    cases e with
    | none => trivial
    | some e => exact isError_of_extends hext hsound
  | error configName e timestamp => exact isError_of_extends hext hsound
  | diagnosticsReport requestId report => exact isReport_of_extends hext hsound
  | _ => trivial

/-- `configurations` of the report has a hole. -/
def HasHole (h : JsHeap) (report : JsValue) : Prop :=
  ∃ o list elements, record? h report = some o ∧
    h.object? (o.get (js "configurations")) = some list ∧
    list.kind = .array elements ∧ none ∈ elements

/-- An entry that is read as `undefined` is no configuration. -/
theorem all_configurations {elements : List (Option JsValue)} :
    (∀ v ∈ elements.map fun element => element.getD .undefined,
      isReportedConfiguration h v = true) ↔
      (∀ v ∈ elements.reduceOption, isReportedConfiguration h v = true) ∧ none ∉ elements := by
  simp only [List.forall_mem_map, List.reduceOption_mem_iff]
  constructor
  · refine fun hall => ⟨fun v hv => hall (some v) hv, fun hnone => ?_⟩
    exact Bool.false_ne_true (hall none hnone)
  · rintro ⟨hall, hfilled⟩ element helement
    cases element with
    | none => exact absurd helement hfilled
    | some v => exact hall v helement

/-- What the decoder takes for a report is one as declared exactly if its list has no hole. -/
theorem isDeclaredReport_iff :
    isDeclaredReport h v = true ↔ isParticipantDiagnostics h v = true ∧ ¬HasHole h v := by
  unfold isDeclaredReport isParticipantDiagnostics isReportListing HasHole
  cases record? h v with
  | none => simp
  | some o =>
    cases hlist : h.object? (o.get (js "configurations")) with
    | none => simp [hlist]
    | some list =>
      obtain ⟨kind, properties⟩ := list
      cases kind with
      | array elements =>
        have hall : (∀ v ∈ elements.map fun element => element.getD .undefined,
            isReportedConfiguration h v = true) ↔
            (∀ v ∈ elements.reduceOption, isReportedConfiguration h v = true) ∧ none ∉ elements :=
              all_configurations
        rw [← List.all_eq_true, ← List.all_eq_true] at hall
        simp only [JsObject.elements, JsObject.present, JsObject.isArray, hlist, Bool.true_and,
          Bool.and_eq_true, hall]
        simp [and_assoc, hlist]
      | _ => simp [hlist, JsObject.isArray]

theorem Body.Sound.walked {body : Body} (hsound : body.Sound .stated h) : body.Sound .walked h := by
  have hreport {v : JsValue} (hv : Judgement.stated.isReport h v) : Judgement.walked.isReport h v :=
    ⟨IsTreeWithin.walked hv.1, (isDeclaredReport_iff.mp hv.2).1⟩
  cases body with
  | writeResult configName requestId e term =>
    cases e with
    | none => trivial
    | some e => exact hsound.imp_left IsTreeWithin.walked
  | error configName e timestamp => exact hsound.imp_left IsTreeWithin.walked
  | diagnosticsReport requestId report => exact hreport hsound
  | _ => trivial

theorem record?_of_object? (hv : h.object? v = some o) (harray : o.isArray = false) :
    record? h v = some o := by
  rw [record?, hv, Option.filter_some, harray]
  rfl

theorem isPayload_view {payload : Payload} (hv : h.object? v = some ⟨.uint8Array payload.val, []⟩) :
    IsPayload h v payload :=
  ⟨_, hv, Or.inl ⟨_, rfl, rfl⟩⟩

theorem isDevice_object {device : StatusDevice} (hv : h.object? v = some device.object) :
    IsDevice h v device := by
  have hrecord : record? h v = some device.object := record?_of_object? hv (by match device with
    | .chosen (.usb _ _) | .chosen .nonUsb | .any | .auto => rfl)
  refine ⟨device.object, hrecord, ?_⟩
  match device with
  | .chosen (.usb _ _) => exact ⟨rfl, rfl, rfl⟩
  | .chosen .nonUsb | .any | .auto => rfl

/-- A message and its nested object in the heap form the body. -/
theorem formsBody_object {m : Message} {nested : JsValue} (hsound : m.body.Sound .walked h)
    (hnested : ∀ o, m.body.nested? = some o → h.object? nested = some o) :
    FormsBody .walked h (m.object nested) m.body := by
  obtain ⟨sender, target, body⟩ := m
  cases body with
  | hello configNames =>
    refine ⟨_, hnested _ rfl, rfl, ?_⟩
    simp [JsObject.elements]
  | workerLog record =>
    have hfields : h.object? nested = some ⟨.plain, record.fields.map fun field =>
      (field.1, field.2.value)⟩ := hnested _ rfl
    exact ⟨rfl, rfl, _, record?_of_object? hfields rfl, rfl⟩
  | writeRequest configName requestId payload term =>
    exact ⟨rfl, rfl, isPayload_view (hnested _ rfl), rfl⟩
  | writeResult configName requestId e term =>
    refine ⟨rfl, rfl, rfl, ?_, rfl⟩
    rintro e' rfl
    exact ⟨rfl, hsound⟩
  | dataReceived configName payload text timestamp =>
    exact ⟨rfl, isPayload_view (hnested _ rfl), rfl, rfl⟩
  | dataSent configName payload originClientId timestamp =>
    exact ⟨rfl, isPayload_view (hnested _ rfl), rfl, rfl⟩
  | status configName value maxTabs device term timestamp =>
    exact ⟨rfl, rfl, rfl, isDevice_object (hnested _ rfl), rfl, rfl⟩
  | error configName e timestamp => exact ⟨rfl, rfl, hsound, rfl⟩
  | statusRequest configName retry device =>
    cases device with
    | none => exact ⟨rfl, rfl, rfl⟩
    | some device => exact ⟨rfl, rfl, isDevice_object (hnested _ rfl)⟩
  | diagnosticsReport requestId report => exact ⟨rfl, rfl, hsound⟩
  | welcome worker | diagnosticsRequest requestId => rfl
  | ownerReleased configName term => exact ⟨rfl, rfl⟩
  | ownerClaimed configName term maxTabs => exact ⟨rfl, rfl, rfl⟩
  | writeReady configName requestId term => exact ⟨rfl, rfl, rfl⟩
  | writeApproval configName requestId term approved => exact ⟨rfl, rfl, rfl, rfl⟩

theorem forms_object {m : Message} {nested : JsValue} (hv : h.object? v = some (m.object nested))
    (hsound : m.body.Sound .walked h)
    (hnested : ∀ o, m.body.nested? = some o → h.object? nested = some o) : Forms .walked h v m :=
  ⟨m.object nested, record?_of_object? hv rfl, rfl, rfl, rfl, rfl, formsBody_object hsound hnested⟩

theorem forms_post {m : Message} (hsound : m.body.Sound .walked h) :
    Forms .walked (m.post h).1 (m.post h).2 m := by
  unfold Message.post
  split
  · next hnone =>
    refine forms_object JsHeap.object?_put (hsound.of_extends (JsHeap.extends_put _ _))
      fun o ho => ?_
    rw [hnone] at ho
    exact nomatch ho
  · next o hsome =>
    have hext := (JsHeap.extends_put h o).trans
      (JsHeap.extends_put (h.put o).1 (m.object (h.put o).2))
    refine forms_object JsHeap.object?_put (hsound.of_extends hext) fun o' ho' => ?_
    obtain rfl := Option.some.inj (hsome.symm.trans ho')
    have hread : ((h.put o).1.put (m.object (h.put o).2)).1.read h.length = o := by
      refine (JsHeap.read_alloc_of_lt ?_).trans JsHeap.read_alloc_self
      rw [JsHeap.put, JsHeap.length_alloc]
      exact Nat.lt_succ_self _
    exact congrArg some hread

/-- A message that is posted is decoded to itself. -/
theorem decodeMessage_post {m : Message} (hsound : m.body.Sound .walked h) :
    decodeMessage (m.post h).1 (m.post h).2 = .ok m :=
  decodeMessage_eq_ok.mpr (forms_post hsound)

/-- What the decoder should do with a value: it gives the message the value forms within the stated
limits, if it forms one; the message has no field its type does not declare, and is decoded to
itself. -/
structure DecodesExactly (h : JsHeap) (raw : JsValue) : Prop where
  accepts : ∀ m, decodeMessage h raw = .ok m ↔ Forms .stated h raw m
  declared : ∀ m, decodeMessage h raw = .ok m → ∃ o, (m.post h).1.object? (m.post h).2 = some o ∧
    ∀ field ∈ o.properties, field.1 ∈ envelopeFields ++ m.body.type.declared
  again : ∀ m, decodeMessage h raw = .ok m → decodeMessage (m.post h).1 (m.post h).2 = .ok m
  every : ∀ m : Message, m.body.Sound .stated h → decodeMessage (m.post h).1 (m.post h).2 = .ok m

/-- What the decoder leaves out of a nested structure would not speak against it: everything in it
is counted, and a report within the limits has no hole in its list of configurations. -/
def Body.CountsAll (h : JsHeap) : Body → Prop
  | .writeResult _ _ (some e) _ | .error _ e _ =>
    SerialBroker.Wire.CountsAll h ⟨maxErrorValues, maxErrorCharacters⟩ e
  | .diagnosticsReport _ report =>
    SerialBroker.Wire.CountsAll h ⟨maxReportValues, maxReportCharacters⟩ report ∧
      (IsTreeWithin (walkedPart h) report maxReportValues maxReportCharacters → ¬HasHole h report)
  | .writeResult _ _ none _ | .hello _ | .welcome _ | .workerLog _ | .ownerClaimed ..
  | .ownerReleased ..
  | .writeRequest .. | .writeReady .. | .writeApproval .. | .dataReceived ..
  | .dataSent .. | .status ..
  | .statusRequest .. | .diagnosticsRequest _ => True

/-- A report whose list of configurations is one hole. -/
def holedReport : JsHeap :=
  [⟨.array [none], []⟩,
    ⟨.plain, [(js "clientId", .string (js "tab")), (js "transport", .string (js "sharedworker")),
      (js "protocolVersion", .number (.finite 1)), (js "reportedAt", .number (.finite 0)),
      (js "configurations", .object 0)]⟩,
    ⟨.plain, [(js "type", .string (js "diagnostics-report")), (js "v", .number (.finite 1)),
      (js "from", .string (js "tab")), (js "to", .string (js "all")),
      (js "requestId", .string (js "r")),
      (js "report", .object 1)]⟩]

theorem not_decodes_exactly_holedReport : ¬ DecodesExactly holedReport (.object 2) := by
  intro hexact
  have hdecode : decodeMessage holedReport (.object 2) = .ok ⟨⟨js "tab", by decide, by decide⟩,
      toAll,
      .diagnosticsReport ⟨js "r", by decide, by decide⟩ (.object 1)⟩ := by decide
  have hreport : Judgement.stated.isReport holedReport (.object 1) :=
    ((hexact.accepts _).mp hdecode).sound
  exact absurd hreport.2 (by decide)

end SerialBroker.Wire
