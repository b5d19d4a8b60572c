import SerialBroker.Core.Validation
import SerialBroker.Owner.PortSupervisor
import SerialBroker.Protocol.RoundTrip

/-!
# What is read from the port, and how it is delivered

`ReceiveBuffer` of `owner/receive-buffer.ts`, the settings it runs with as `normalizeConfiguration`
accepts them, and the delivery of `PortSupervisor.#deliver` that the session of
`client/configuration-session.ts` broadcasts as `data-received`. A timer is the moment it is due.

Three limits meet: of a read, of what is collected before it is delivered, and of a payload on the
bus. The largest delivery is one read more than what may be collected, so where reads may be nearly
as large as a payload it is too large for the bus.
-/

namespace SerialBroker.Wire

/-! ### the settings -/

/-- What receiving reads of an accepted configuration. -/
structure ReceiveConfiguration where
  bufferSize : IntegerIn 1 maxChunkBytes
  idleMs : IntegerIn 0 longestDelayMs
  maxWaitMs : IntegerIn 1 longestDelayMs
  decodeText : Bool

def ReceiveConfiguration.of (c : NormalizedConfiguration) : ReceiveConfiguration :=
  ⟨c.serial.bufferSize, c.receive.idleMs, c.receive.maxWaitMs, c.encoding.decodeText⟩

/-- Every one of them is accepted, whatever else the configuration says. -/
theorem exists_accepted {textDecoder : JsString → Option JsString} (c : ReceiveConfiguration)
    (rest : NormalizedConfiguration)
    (hne : rest.encoding.encoding ≠ [])
    (hlabel : textDecoder rest.encoding.encoding = some rest.encoding.encoding) :
    ∃ options accepted, normalizeConfiguration textDecoder
    (.string rest.name.val) options = .ok accepted ∧
      ReceiveConfiguration.of accepted = c := by
  generalize hchosen : { rest with
    serial := { rest.serial with bufferSize := c.bufferSize }
    receive := ⟨c.idleMs, c.maxWaitMs⟩
    encoding := { rest.encoding with decodeText := c.decodeText } } = chosen
  have hname : chosen.name = rest.name := by rw [← hchosen]
  have hencoding : chosen.encoding.encoding = rest.encoding.encoding := by rw [← hchosen]
  obtain ⟨hmaxAttempts, hmaxTabs⟩ := toSetupOptions_defined chosen
  refine ⟨toSetupOptions chosen, chosen, ?_, by rw [← hchosen]; rfl⟩
  rw [← hname]
  exact normalizeConfiguration_fields (hencoding ▸ hne) (hencoding ▸ hlabel)
    hmaxAttempts rfl hmaxTabs

/-! ### the buffer -/

structure ReceiveBuffer where
  chunks : List (List UInt8)
  byteLength : Nat
  idleTimer : Option Nat
  waitTimer : Option Nat
  deriving DecidableEq

namespace ReceiveBuffer

variable (c : ReceiveConfiguration)

def empty : ReceiveBuffer := ⟨[], 0, none, none⟩

/-- `flush`, with what it delivers. -/
def flush (b : ReceiveBuffer) : ReceiveBuffer × Option (List UInt8) :=
  if b.byteLength = 0 then ({ b with idleTimer := none, waitTimer := none }, none)
  else (empty, some (match b.chunks with
    | [only] => only
    | chunks => chunks.flatten))

/-- `push`, with what it delivers. -/
def push (b : ReceiveBuffer) (now : Nat) (chunk : List UInt8) :
    ReceiveBuffer × Option (List UInt8) :=
  if chunk.length = 0 then (b, none)
  else
    let b := { b with chunks := b.chunks ++ [chunk], byteLength := b.byteLength + chunk.length }
    if c.idleMs.val = 0 ∨ b.byteLength ≥ maxReceiveDeliveryBytes then b.flush
    else ({ b with
      idleTimer := some (now + c.idleMs.val)
      waitTimer := b.waitTimer.or (some (now + c.maxWaitMs.val)) }, none)

end ReceiveBuffer

/-! ### the deliveries -/

/-- A streaming `TextDecoder`, of which is known that a decoded text has at most one code unit for
each byte and a few for the bytes held back from the chunk before. -/
structure StreamDecoder where
  State : Type
  init : State
  decode : State → List UInt8 → State × JsString
  heldBack : Nat
  heldBack_le : heldBack ≤ maxPayloadBytes
  length_decode : ∀ s data, (decode s data).2.length ≤ data.length + heldBack

/-- What the port hands on at once: bytes, and their text where it is decoded. -/
structure Delivery where
  data : List UInt8
  text : Option JsString
  deriving DecidableEq

/-- Reading a port: the buffer and the decoder of the connection, and what has been delivered. -/
structure PortReading (decoder : StreamDecoder) where
  buffer : ReceiveBuffer
  decoding : decoder.State
  deliveries : List Delivery

/-- What happens to a port that is read. -/
inductive ReadEvent
  | read (now : Nat) (chunk : List UInt8)
  | idleTimer
  | waitTimer
  | connectionEnded
  deriving DecidableEq

namespace PortReading

variable (c : ReceiveConfiguration) {decoder : StreamDecoder}

def init : PortReading decoder := ⟨.empty, decoder.init, []⟩

/-- `#deliver`. -/
def deliver (s : PortReading decoder) (data : List UInt8) : PortReading decoder :=
  if c.decodeText then
    let decoded := decoder.decode s.decoding data
    { s with decoding := decoded.1, deliveries := s.deliveries ++ [⟨data, some decoded.2⟩] }
  else { s with deliveries := s.deliveries ++ [⟨data, none⟩] }

/-- The buffer after a step, with what the step delivers. -/
def after (s : PortReading decoder) (step : ReceiveBuffer × Option (List UInt8)) :
    PortReading decoder :=
  match step.2 with
  | none => { s with buffer := step.1 }
  | some data => { s with buffer := step.1 }.deliver c data

/-- A read of at most `bufferSize` bytes, or a timer, or the end of the connection; the next one has
a decoder of its own. -/
def step (s : PortReading decoder) : ReadEvent → Option (PortReading decoder)
  | .read now chunk =>
    if chunk.length ≤ c.bufferSize.val then some (s.after c (s.buffer.push c now chunk)) else none
  | .idleTimer => if s.buffer.idleTimer.isSome then some (s.after c s.buffer.flush) else none
  | .waitTimer => if s.buffer.waitTimer.isSome then some (s.after c s.buffer.flush) else none
  | .connectionEnded =>
    some { s.after c s.buffer.flush with buffer := .empty, decoding := decoder.init }

end PortReading

def portReadings (c : ReceiveConfiguration) (decoder : StreamDecoder) :
    TransitionSystem (PortReading decoder) ReadEvent :=
  ⟨.init, PortReading.step c⟩

/-- Who broadcasts a delivery, and when. -/
structure DeliveryEnvelope where
  sender : Identifier
  configName : ConfigName
  timestamp : FiniteNumber

/-- The object that is sent for a delivery, under the reference 1 of its heap. -/
def DeliveryEnvelope.message (e : DeliveryEnvelope) (d : Delivery) : JsHeap :=
  [⟨.uint8Array (.ofBytes d.data), []⟩,
    ⟨.plain, [(js "v", .number protocolVersion), (js "from", .string e.sender),
    (js "configName", .string e.configName),
      (js "type", .string (js "data-received")), (js "to", .string toAll),
      (js "payload", .object 0),
      (js "text", optionalString d.text), (js "timestamp", .number e.timestamp)]⟩]

/-- Whether the other tabs accept a delivery, and receive what was delivered. -/
def IsReceived (e : DeliveryEnvelope) (d : Delivery) : Prop :=
  ∃ payload text, decodeMessage (e.message d) (.object 1) = .ok ⟨e.sender, toAll,
    .dataReceived e.configName payload text e.timestamp⟩ ∧
    payload.val.bytes = d.data ∧ text.map Subtype.val = d.text

theorem isReceived_iff {e : DeliveryEnvelope} {d : Delivery} :
    IsReceived e d ↔ d.data.length ≤ maxPayloadBytes ∧ ∀ text, d.text = some text →
    text.length ≤ maxTextLength := by
  constructor
  · rintro ⟨payload, text, -, hpayload, htext⟩
    refine ⟨hpayload ▸ payload.property.2, fun t ht => ?_⟩
    rw [ht] at htext
    obtain ⟨text, rfl, rfl⟩ := Option.map_eq_some_iff.mp htext
    exact text.property
  · rintro ⟨hdata, htext⟩
    refine ⟨⟨.ofBytes d.data, Uint8Array.spansItsBuffer_ofBytes _, hdata⟩,
      d.text.attach.map fun text => ⟨text.val, htext text.val text.property⟩, ?_, rfl, ?_⟩
    · refine decodeMessage_eq_ok.mpr ⟨_, record?_of_object? rfl rfl, rfl, rfl, rfl, rfl, rfl,
        isPayload_view rfl, ?_, rfl⟩
      exact congrArg optionalString (by simp)
    · simp

/-! ### how large a delivery is -/

/-- The most a buffer may hold between two steps. -/
def maxCollected (c : ReceiveConfiguration) : Nat :=
  if c.idleMs.val = 0 then 0 else maxReceiveDeliveryBytes - 1

/-- What is known of a buffer between two steps. -/
structure ReceiveBuffer.Sound (c : ReceiveConfiguration) (b : ReceiveBuffer) : Prop where
  byteLength : b.byteLength = b.chunks.flatten.length
  collected : b.byteLength ≤ maxCollected c

variable {c : ReceiveConfiguration} {decoder : StreamDecoder} {b : ReceiveBuffer}
  {data chunk : List UInt8} {now : Nat}

theorem ReceiveBuffer.empty_sound : ReceiveBuffer.empty.Sound c := ⟨rfl, Nat.zero_le _⟩

theorem ReceiveBuffer.flush_data (hdata : b.flush.2 = some data) :
    data = b.chunks.flatten := by
  unfold flush at hdata
  split at hdata
  · exact nomatch hdata
  · obtain rfl := Option.some.inj hdata
    split
    · next only hchunks => rw [hchunks, List.flatten_singleton]
    · rfl

theorem ReceiveBuffer.flush_sound (hlength : b.byteLength = b.chunks.flatten.length) :
    b.flush.1.Sound c := by
  unfold flush
  split
  · next hempty => exact ⟨hlength, by simp [hempty]⟩
  · exact empty_sound

theorem ReceiveBuffer.push_length (hb : b.Sound c) :
    b.byteLength + chunk.length = (b.chunks ++ [chunk]).flatten.length := by
  rw [hb.byteLength, List.flatten_append, List.length_append, List.flatten_singleton]

theorem ReceiveBuffer.push_sound (hb : b.Sound c) : (b.push c now chunk).1.Sound c := by
  unfold push
  split
  · exact hb
  · dsimp only
    split
    · exact flush_sound (push_length hb)
    · next hsmall =>
      rw [not_or, ge_iff_le, Nat.not_le] at hsmall
      refine ⟨push_length hb, ?_⟩
      rw [maxCollected, if_neg hsmall.1]
      exact Nat.le_sub_one_of_lt hsmall.2

theorem ReceiveBuffer.push_data (hb : b.Sound c) (hdata : (b.push c now chunk).2 = some data) :
    data.length ≤ maxCollected c + chunk.length := by
  unfold push at hdata
  split at hdata
  · exact nomatch hdata
  · dsimp only at hdata
    split at hdata
    · rw [flush_data hdata, ← push_length hb]
      exact Nat.add_le_add_right hb.collected _
    · exact nomatch hdata

theorem ReceiveBuffer.flush_data_le (hb : b.Sound c) (hdata : b.flush.2 = some data) :
    data.length ≤ maxCollected c := by
  rw [flush_data hdata, ← hb.byteLength]
  exact hb.collected

/-- What is known of a delivery: it is at most one read larger than what may be collected, and its
text not much longer. -/
structure Delivery.Sound (c : ReceiveConfiguration) (decoder : StreamDecoder) (d : Delivery) :
    Prop where
  data : d.data.length ≤ maxCollected c + c.bufferSize.val
  text : ∀ text, d.text = some text → text.length ≤ d.data.length + decoder.heldBack

structure PortReading.Sound (c : ReceiveConfiguration) (s : PortReading decoder) : Prop where
  buffer : s.buffer.Sound c
  deliveries : ∀ d ∈ s.deliveries, d.Sound c decoder

theorem PortReading.deliver_sound {s : PortReading decoder} (hs : s.Sound c)
    (hdata : data.length ≤ maxCollected c + c.bufferSize.val) : (s.deliver c data).Sound c := by
  unfold deliver
  split
  · refine ⟨hs.buffer, fun d hd => ?_⟩
    rcases List.mem_append.mp hd with hd | hd
    · exact hs.deliveries d hd
    · obtain rfl := List.mem_singleton.mp hd
      exact ⟨hdata, fun text htext => Option.some.inj htext ▸ decoder.length_decode s.decoding data⟩
  · refine ⟨hs.buffer, fun d hd => ?_⟩
    rcases List.mem_append.mp hd with hd | hd
    · exact hs.deliveries d hd
    · obtain rfl := List.mem_singleton.mp hd
      exact ⟨hdata, nofun⟩

theorem PortReading.after_sound {s : PortReading decoder}
    {step : ReceiveBuffer × Option (List UInt8)} (hs : s.Sound c)
    (hbuffer : step.1.Sound c)
    (hdata : ∀ data, step.2 = some data → data.length ≤ maxCollected c + c.bufferSize.val) :
    (s.after c step).Sound c := by
  unfold after
  split
  · exact ⟨hbuffer, hs.deliveries⟩
  · next data hsome =>
      exact deliver_sound (s := { s with
        buffer := step.1 }) ⟨hbuffer, hs.deliveries⟩ (hdata data hsome)

theorem PortReading.flush_sound {s : PortReading decoder} (hs : s.Sound c) :
    (s.after c s.buffer.flush).Sound c :=
  after_sound hs (ReceiveBuffer.flush_sound hs.buffer.byteLength) fun _ hdata =>
    (ReceiveBuffer.flush_data_le hs.buffer hdata).trans (Nat.le_add_right _ _)

theorem PortReading.step_sound {s s' : PortReading decoder} {event : ReadEvent} (hs : s.Sound c)
    (hstep : s.step c event = some s') :
    s'.Sound c := by
  cases event with
  | read now chunk =>
    obtain ⟨hchunk, hs'⟩ := Option.ite_none_right_eq_some.mp hstep
    obtain rfl := Option.some.inj hs'
    refine after_sound hs (ReceiveBuffer.push_sound hs.buffer) fun data hdata => ?_
    exact (ReceiveBuffer.push_data hs.buffer hdata).trans (Nat.add_le_add_left hchunk _)
  | idleTimer | waitTimer =>
    obtain ⟨-, hs'⟩ := Option.ite_none_right_eq_some.mp hstep
    obtain rfl := Option.some.inj hs'
    exact flush_sound hs
  | connectionEnded =>
    obtain rfl := Option.some.inj hstep
    exact ⟨ReceiveBuffer.empty_sound, (flush_sound hs).deliveries⟩

theorem portReadings_sound {s : PortReading decoder} {events : List ReadEvent}
    (hrun : (portReadings c decoder).run events = some s) :
    s.Sound c :=
  (portReadings c decoder).run_invariant_all (P := PortReading.Sound c) ⟨ReceiveBuffer.empty_sound,
      fun _ hd => absurd hd List.not_mem_nil⟩
    (fun _ _ _ hs hstep => PortReading.step_sound hs hstep) hrun

theorem PortReading.deliver_mem (s : PortReading decoder) (data : List UInt8) :
    ∃ d ∈ (s.deliver c data).deliveries, d.data = data := by
  unfold deliver
  split
  · exact ⟨_, List.mem_append_right _ (List.mem_singleton_self _), rfl⟩
  · exact ⟨_, List.mem_append_right _ (List.mem_singleton_self _), rfl⟩

/-- A read that fills the buffer all but a byte, and then the largest read there is. -/
theorem run_fullBuffer (decoder : StreamDecoder) (hidle : c.idleMs.val ≠ 0)
    {first second : List UInt8}
    (hfirst : first.length = maxReceiveDeliveryBytes - 1)
    (hsecond : second.length = c.bufferSize.val)
    (hsize : maxReceiveDeliveryBytes - 1 ≤ c.bufferSize.val) :
    ∃ s, (portReadings c decoder).run [.read 0 first, .read 0 second] = some s ∧
      ∃ d ∈ s.deliveries, d.data.length = c.bufferSize.val + (maxReceiveDeliveryBytes - 1) := by
  have hpos := c.bufferSize.property.1
  have hlimit : maxReceiveDeliveryBytes = 65536 := rfl
  let collecting : ReceiveBuffer :=
    ⟨[first], 0 + first.length, some (0 + c.idleMs.val), some (0 + c.maxWaitMs.val)⟩
  have hpush : ReceiveBuffer.empty.push c 0 first = (collecting, none) := by
    rw [ReceiveBuffer.push, if_neg (by omega)]
    exact if_neg (by rw [not_or]; exact ⟨hidle, by simp only [ReceiveBuffer.empty]; omega⟩)
  have hflush : collecting.push c 0 second = (.empty, some [first, second].flatten) := by
    rw [ReceiveBuffer.push, if_neg (by omega)]
    refine (if_pos (Or.inr ?_)).trans (if_neg ?_)
    · simp only [collecting]
      omega
    · simp only [collecting]
      omega
  let s₁ : PortReading decoder :=
    { (PortReading.init : PortReading decoder) with buffer := collecting }
  have hs₁ : (PortReading.init : PortReading decoder).step c (.read 0 first) = some s₁ := by
    rw [PortReading.step, if_pos (by omega), PortReading.init, hpush]
    rfl
  have hs₂ : s₁.step c (.read 0 second) =
      some ({ s₁ with buffer := .empty }.deliver c [first, second].flatten) := by
    rw [PortReading.step, if_pos (by omega), hflush]
    rfl
  refine ⟨{ s₁ with buffer := .empty }.deliver c [first, second].flatten, ?_, ?_⟩
  · refine Option.bind_eq_some_iff.mpr ⟨s₁, hs₁, ?_⟩
    exact Option.bind_eq_some_iff.mpr ⟨_, hs₂, rfl⟩
  · obtain ⟨d, hd, hdata⟩ := PortReading.deliver_mem (c := c)
      { s₁ with buffer := .empty } [first, second].flatten
    refine ⟨d, hd, ?_⟩
    rw [hdata, List.flatten_cons, List.flatten_singleton, List.length_append]
    omega

/-- A decoder of one code unit for each byte. -/
def latinDecoder : StreamDecoder where
  State := Unit
  init := ()
  decode _ data := ((), data.map fun byte => UInt16.ofNat byte.toNat)
  heldBack := 0
  heldBack_le := Nat.zero_le _
  length_decode _ _ := (List.length_map _).le

/-- **Every delivery is accepted by the other tabs**, whatever is read and whenever, exactly if
bytes are not collected or the largest read leaves room in a payload for a nearly full buffer. -/
theorem deliveries_received_iff (c : ReceiveConfiguration) :
    (∀ (decoder : StreamDecoder) (e : DeliveryEnvelope) (events : List ReadEvent)
      (s : PortReading decoder),
        (portReadings c decoder).run events = some s → ∀ d ∈ s.deliveries, IsReceived e d) ↔
      c.idleMs.val = 0 ∨ c.bufferSize.val + (maxReceiveDeliveryBytes - 1) ≤ maxPayloadBytes := by
  have hsize := c.bufferSize.property.2
  have hbytes : maxChunkBytes = maxPayloadBytes := rfl
  constructor
  · intro hall
    by_contra hnot
    rw [not_or, Nat.not_le] at hnot
    have hlarge : maxReceiveDeliveryBytes - 1 ≤ c.bufferSize.val := by
      have hlimit : maxReceiveDeliveryBytes = 65536 := rfl
      have hpayload : maxPayloadBytes = 16777216 := rfl
      omega
    obtain ⟨s, hrun, d, hd, hdata⟩ :=
      run_fullBuffer latinDecoder hnot.1 (List.length_replicate (a := 0))
        (List.length_replicate (a := 0)) hlarge
    let e : DeliveryEnvelope := ⟨toAll, ⟨js "scale", by decide, by decide⟩, ⟨.finite 0, rfl⟩⟩
    have hreceived := (isReceived_iff.mp (hall latinDecoder e _ s hrun d hd)).1
    omega
  · intro hroom decoder e events s hrun d hd
    have hsound := (portReadings_sound hrun).deliveries d hd
    have hdata : d.data.length ≤ maxPayloadBytes := by
      refine hsound.data.trans ?_
      unfold maxCollected
      split
      · omega
      · omega
    refine isReceived_iff.mpr ⟨hdata, fun text htext => ?_⟩
    have hlength := hsound.text text htext
    have hheld := decoder.heldBack_le
    have hlimit : maxTextLength = 2 * maxPayloadBytes := rfl
    omega

/-- The largest buffer, with the usual waits. -/
def largestReads : ReceiveConfiguration :=
  ⟨⟨maxChunkBytes, by decide⟩, defaultReceive.idleMs, defaultReceive.maxWaitMs, false⟩

theorem not_deliveries_received :
    ¬ ∀ (decoder : StreamDecoder) (e : DeliveryEnvelope) (events : List ReadEvent)
    (s : PortReading decoder),
      (portReadings largestReads decoder).run events = some s →
      ∀ d ∈ s.deliveries, IsReceived e d := by
  intro hall
  obtain ⟨s, hrun, d, hd, hdata⟩ :=
    run_fullBuffer (c := largestReads) latinDecoder (by decide) (List.length_replicate (a := 0))
      (List.length_replicate (a := 0)) (by decide)
  let e : DeliveryEnvelope := ⟨toAll, ⟨js "scale", by decide, by decide⟩, ⟨.finite 0, rfl⟩⟩
  have hreceived := (isReceived_iff.mp (hall latinDecoder e _ s hrun d hd)).1
  rw [hdata] at hreceived
  exact absurd hreceived (by decide)

end SerialBroker.Wire
