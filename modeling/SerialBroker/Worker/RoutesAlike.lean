import Mathlib.Data.Finset.Card
import SerialBroker.Client.Transports
import SerialBroker.Protocol.RoundTrip
import SerialBroker.Worker.Broker

/-!
# Whether both transports route alike

The broker keeps tables of what the hellos it heard say; over a `BroadcastChannel` each context
looks at what it is attached to itself. `Follows` ties the tables to the attachments, and every
message that arrives keeps it while the limits have room. From it, who receives a message over the
worker is as plain as over the channel, and the two can be compared message by message: they differ
on a request for diagnostics addressed to one context, and on a report of them addressed to all.
-/

namespace SerialBroker.Wire

/-! ### the attachments -/

/-- What a context said last it takes part in. -/
structure Attachment where
  clientId : Identifier
  names : List ConfigName
  deriving DecidableEq

/-- A message as it arrives on the port of a context. -/
structure Arrival where
  clientId : Identifier
  heap : JsHeap
  raw : JsValue

def Arrival.attach (attachments : List Attachment) (arrival : Arrival) : List Attachment :=
  match decodeMessage arrival.heap arrival.raw with
  | .ok ⟨_, _, .hello names⟩ =>
    KeyedList.put Attachment.clientId ⟨arrival.clientId, names⟩ attachments
  | _ => attachments

/-- The attachments that the hellos among the arrivals leave. -/
def attachmentsOf (arrivals : List Arrival) : List Attachment := arrivals.foldl Arrival.attach []

def attachedNames (attachments : List Attachment) : Finset ConfigName :=
  (attachments.flatMap Attachment.names).toFinset

/-- The limits of the worker have room for the attachments. -/
structure WithinLimits (attachments : List Attachment) : Prop where
  participants : attachments.length ≤ maxParticipants
  configurations : (attachedNames attachments).card ≤ maxConfigurations

theorem mem_attachedNames {attachments : List Attachment} {name : ConfigName} :
    name ∈ attachedNames attachments ↔ ∃ a ∈ attachments, name ∈ a.names := by
  simp [attachedNames]

theorem Arrival.attach_hello {attachments : List Attachment} {arrival : Arrival} {m : Message}
    {names : {names : List ConfigName // names.length ≤ maxHelloConfigurations}}
    (hdecode : decodeMessage arrival.heap arrival.raw = .ok m)
    (hbody : m.body = .hello names) :
    arrival.attach attachments = KeyedList.put Attachment.clientId ⟨arrival.clientId, names⟩
      attachments := by
  obtain ⟨sender, target, body⟩ := m
  unfold Arrival.attach
  rw [hdecode, show body = .hello names from hbody]

theorem Arrival.attach_other {attachments : List Attachment} {arrival : Arrival}
    (hother : ∀ m, decodeMessage arrival.heap arrival.raw = .ok m →
      ∀ names, m.body ≠ .hello names) :
    arrival.attach attachments = attachments := by
  unfold Arrival.attach
  split
  · next hdecode => exact absurd rfl (hother _ hdecode _)
  · rfl

theorem mem_put_id {α : Type*} [DecidableEq α] {a b : α} {l : List α} :
    b ∈ KeyedList.put id a l ↔ b = a ∨ b ∈ l := by
  constructor
  · exact KeyedList.mem_of_mem_put
  · intro h
    by_cases hab : b = a
    · exact hab ▸ KeyedList.mem_put_self
    · exact KeyedList.mem_put_of_ne (h.resolve_left hab) hab

/-! ### the broker's tables -/

namespace Broker

variable {b : Broker} {clientId c : Identifier} {name name' : ConfigName} {names : List ConfigName}

/-- The client is a participant of the configuration. -/
def Has (b : Broker) (name : ConfigName) (c : Identifier) : Prop :=
  ∃ p ∈ b.configurations, p.configName = name ∧ c ∈ p.clients

/-- Each configuration is kept once, and only while it has participants. -/
structure Tidy (b : Broker) : Prop where
  distinct : KeyedList.Distinct Participants.configName b.configurations
  inhabited : ∀ p ∈ b.configurations, p.clients ≠ []

theorem mem_participantsOf (hb : b.Tidy) : c ∈ b.participantsOf name ↔ b.Has name c := by
  unfold participantsOf
  cases hlookup : KeyedList.lookup Participants.configName name b.configurations with
  | none =>
    have hnone := KeyedList.lookup_eq_none.mp hlookup
    exact ⟨fun h => absurd h List.not_mem_nil, fun ⟨p, hp, hname, _⟩ => absurd hname (hnone p hp)⟩
  | some participants =>
    obtain ⟨hmem, hname⟩ := hb.distinct.lookup_iff.mp hlookup
    constructor
    · exact fun h => ⟨participants, hmem, hname, h⟩
    · rintro ⟨p, hp, hpname, hc⟩
      have heq := hb.distinct.eq_of_mem hp hmem (hpname.trans hname.symm)
      exact heq ▸ hc

theorem mem_leave {p' : Participants} :
    p' ∈ (b.leave clientId names).configurations ↔ ∃ p ∈ b.configurations,
    (p.configName ∈ names ∧ p' = p) ∨
      (p.configName ∉ names ∧ p.clients.filter (· ≠ clientId) ≠ [] ∧
        p' = ⟨p.configName, p.clients.filter (· ≠ clientId)⟩) := by
  simp only [leave, List.mem_filterMap]
  refine exists_congr fun p => and_congr_right fun _ => ?_
  by_cases hnames : p.configName ∈ names
  · simp only [hnames, if_true, Option.some.injEq, true_and, not_true_eq_false, false_and,
      or_false, eq_comm]
  · by_cases hclients : p.clients.filter (· ≠ clientId) = []
    · simp only [hnames, if_false, hclients, if_true, reduceCtorEq, false_and, ne_eq,
        not_true_eq_false, and_false, or_false]
    · simp only [hnames, if_false, hclients, Option.some.injEq, false_and, not_false_eq_true, ne_eq,
        true_and, false_or]
      exact eq_comm

theorem has_leave :
    (b.leave clientId names).Has name c ↔ b.Has name c ∧ (name ∈ names ∨ c ≠ clientId) := by
  constructor
  · rintro ⟨p', hp', rfl, hc⟩
    obtain ⟨p, hp, ⟨hnames, rfl⟩ | ⟨_, _, rfl⟩⟩ := mem_leave.mp hp'
    · exact ⟨⟨p', hp, rfl, hc⟩, Or.inl hnames⟩
    · obtain ⟨hc, hne⟩ := List.mem_filter.mp hc
      exact ⟨⟨p, hp, rfl, hc⟩, Or.inr (of_decide_eq_true hne)⟩
  · rintro ⟨⟨p, hp, rfl, hc⟩, hkeep⟩
    by_cases hnames : p.configName ∈ names
    · exact ⟨p, mem_leave.mpr ⟨p, hp, Or.inl ⟨hnames, rfl⟩⟩, rfl, hc⟩
    · have hmem : c ∈ p.clients.filter (· ≠ clientId) :=
        List.mem_filter.mpr ⟨hc, decide_eq_true (hkeep.resolve_left hnames)⟩
      exact ⟨_, mem_leave.mpr ⟨p, hp, Or.inr ⟨hnames, List.ne_nil_of_mem hmem, rfl⟩⟩, rfl, hmem⟩

theorem Tidy.leave (hb : b.Tidy) : (b.leave clientId names).Tidy := by
  constructor
  · have hsublist : ((b.leave clientId names).configurations.map Participants.configName).Sublist
        (b.configurations.map Participants.configName) := by
      unfold Broker.leave
      induction b.configurations with
      | nil => exact List.Sublist.refl _
      | cons p l ih =>
        simp only [List.filterMap_cons]
        split
        · exact ih.cons _
        · next p' hp' =>
          have hname : p'.configName = p.configName := by
            split at hp'
            · rw [← Option.some.inj hp']
            · split at hp'
              · cases hp'
              · rw [← Option.some.inj hp']
          rw [List.map_cons, List.map_cons, hname]
          exact ih.cons_cons _
    exact hb.distinct.sublist hsublist
  · intro p' hp'
    obtain ⟨p, hp, ⟨_, rfl⟩ | ⟨_, hne, rfl⟩⟩ := mem_leave.mp hp'
    · exact hb.inhabited p' hp
    · exact hne

/-- A configuration there is room for has its new participant, and nothing else changes. -/
theorem join_spec (clientId : Identifier) (hb : b.Tidy) {S : Finset ConfigName}
    (hS : ∀ p ∈ b.configurations, p.configName ∈ S) (hname : name' ∈ S)
    (hroom : S.card ≤ maxConfigurations) :
    (b.join clientId name').Tidy ∧
      (∀ p ∈ (b.join clientId name').configurations, p.configName ∈ S) ∧
      ∀ name c, (b.join clientId name').Has name c ↔ b.Has name c ∨
        (name = name' ∧ c = clientId) := by
  unfold join
  cases hlookup : KeyedList.lookup Participants.configName name' b.configurations with
  | some participants =>
    obtain ⟨hmem, rfl⟩ := hb.distinct.lookup_iff.mp hlookup
    refine ⟨⟨hb.distinct.put_self, fun p hp => ?_⟩, fun p hp => ?_, fun name c => ?_⟩
    · rcases KeyedList.mem_of_mem_put hp with rfl | hp
      · exact List.ne_nil_of_mem KeyedList.mem_put_self
      · exact hb.inhabited p hp
    · rcases KeyedList.mem_of_mem_put hp with rfl | hp
      · exact hname
      · exact hS p hp
    · constructor
      · rintro ⟨p, hp, rfl, hc⟩
        rcases KeyedList.mem_of_mem_put hp with rfl | hp
        · rcases mem_put_id.mp hc with rfl | hc
          · exact Or.inr ⟨rfl, rfl⟩
          · exact Or.inl ⟨participants, hmem, rfl, hc⟩
        · exact Or.inl ⟨p, hp, rfl, hc⟩
      · rintro (⟨p, hp, rfl, hc⟩ | ⟨rfl, rfl⟩)
        · by_cases hp' : p.configName = participants.configName
          · have heq := hb.distinct.eq_of_mem hp hmem hp'
            exact ⟨_, KeyedList.mem_put_self, hp'.symm, mem_put_id.mpr (Or.inr (heq ▸ hc))⟩
          · exact ⟨p, KeyedList.mem_put_of_ne hp hp', rfl, hc⟩
        · exact ⟨_, KeyedList.mem_put_self, rfl, KeyedList.mem_put_self⟩
  | none =>
    have hnone := KeyedList.lookup_eq_none.mp hlookup
    have hcard : b.configurations.length + 1 ≤ S.card := by
      have hnot : name' ∉ (b.configurations.map Participants.configName).toFinset := by
        rw [List.mem_toFinset, List.mem_map]
        exact fun ⟨p, hp, hp'⟩ => hnone p hp hp'
      have hsubset : insert name' (b.configurations.map Participants.configName).toFinset ⊆ S := by
        intro x hx
        rcases Finset.mem_insert.mp hx with rfl | hx
        · exact hname
        · obtain ⟨p, hp, rfl⟩ := List.mem_map.mp (List.mem_toFinset.mp hx)
          exact hS p hp
      have hle := Finset.card_le_card hsubset
      rw [Finset.card_insert_of_notMem hnot, List.toFinset_card_of_nodup hb.distinct,
        List.length_map] at hle
      exact hle
    rw [if_neg (by omega)]
    refine ⟨⟨hb.distinct.put_self, fun p hp => ?_⟩, fun p hp => ?_, fun name c => ?_⟩
    · rcases KeyedList.mem_of_mem_put hp with rfl | hp
      · exact List.cons_ne_nil _ _
      · exact hb.inhabited p hp
    · rcases KeyedList.mem_of_mem_put hp with rfl | hp
      · exact hname
      · exact hS p hp
    · constructor
      · rintro ⟨p, hp, rfl, hc⟩
        rcases KeyedList.mem_of_mem_put hp with rfl | hp
        · exact Or.inr ⟨rfl, List.mem_singleton.mp hc⟩
        · exact Or.inl ⟨p, hp, rfl, hc⟩
      · rintro (⟨p, hp, rfl, hc⟩ | ⟨rfl, rfl⟩)
        · exact ⟨p, KeyedList.mem_put_of_ne hp (hnone p hp), rfl, hc⟩
        · exact ⟨_, KeyedList.mem_put_self, rfl, List.mem_singleton_self _⟩

theorem foldl_join_spec (clientId : Identifier) {S : Finset ConfigName}
    (hroom : S.card ≤ maxConfigurations) (hb : b.Tidy)
    (hS : ∀ p ∈ b.configurations, p.configName ∈ S) (hnames : ∀ name ∈ names, name ∈ S) :
    (names.foldl (join · clientId) b).Tidy ∧
      ∀ name c, (names.foldl (join · clientId) b).Has name c ↔ b.Has name c ∨
        (name ∈ names ∧ c = clientId) := by
  induction names generalizing b with
  | nil => exact ⟨hb, fun name c => by simp⟩
  | cons name' names ih =>
    obtain ⟨htidy, hS', hhas⟩ := join_spec clientId hb hS (hnames name' List.mem_cons_self) hroom
    obtain ⟨htidy', hhas'⟩ :=
      ih htidy hS' fun name hname => hnames name (List.mem_cons_of_mem _ hname)
    refine ⟨htidy', fun name c => ?_⟩
    rw [List.foldl_cons, hhas', hhas, List.mem_cons]
    tauto

/-- After a hello its sender takes part in exactly what it names, and nobody else is touched. -/
theorem takePart_spec {S : Finset ConfigName} (hroom : S.card ≤ maxConfigurations) (hb : b.Tidy)
    (hS : ∀ name c, b.Has name c → c ≠ clientId → name ∈ S) (hnames : ∀ name ∈ names, name ∈ S) :
    (b.takePart clientId names).Tidy ∧
      ∀ name c, (b.takePart clientId names).Has name c ↔ if c = clientId then name ∈ names
        else b.Has name c := by
  have hkeys : ∀ p ∈ (b.leave clientId names).configurations, p.configName ∈ S := by
    intro p hp
    by_cases hin : p.configName ∈ names
    · exact hnames _ hin
    · obtain ⟨c, hc⟩ := List.exists_mem_of_ne_nil _ (hb.leave.inhabited p hp)
      obtain ⟨hhas, hne⟩ := has_leave.mp ⟨p, hp, rfl, hc⟩
      exact hS _ c hhas (hne.resolve_left hin)
  have htidied : (b.leave clientId names).Tidy := hb.leave
  obtain ⟨htidy, hhas⟩ := foldl_join_spec clientId hroom htidied hkeys
    fun name hname => hnames name (List.mem_eraseDups.mp hname)
  refine ⟨htidy, fun name c => (hhas name c).trans ?_⟩
  rw [has_leave, List.mem_eraseDups]
  split
  · next h => simp only [h, ne_eq, not_true_eq_false, or_false, and_true]; tauto
  · next h => simp only [h, ne_eq, not_false_eq_true, or_true, and_true, and_false, or_false]

end Broker

/-! ### the worker's tables -/

namespace WorkerPorts

variable {Port : Type} [DecidableEq Port] {port : Identifier → Port} {w : WorkerPorts Port}
  {attachments : List Attachment}
  {workerId c : Identifier} {m : Message}

/-- What the worker keeps for an attached context: one identity, behind its own port. -/
def connectedAs (port : Identifier → Port) (a : Attachment) : Connected Port :=
  ⟨a.clientId, [port a.clientId]⟩

/-- The tables of the worker are those the attachments say. -/
structure Follows (port : Identifier → Port) (w : WorkerPorts Port)
    (attachments : List Attachment) : Prop where
  distinct : KeyedList.Distinct Attachment.clientId attachments
  identities : ∀ c, w.identities (port c) =
    if c ∈ attachments.map Attachment.clientId then some c else none
  connected : w.connected = attachments.map (connectedAs port)
  tidy : w.broker.Tidy
  participants : ∀ name c, w.broker.Has name c ↔ ∃ a ∈ attachments, a.clientId = c ∧ name ∈ a.names

omit [DecidableEq Port] in
theorem follows_fresh : Follows port fresh [] where
  distinct := List.nodup_nil
  identities _ := rfl
  connected := rfl
  tidy := ⟨List.nodup_nil, fun _ hp => absurd hp List.not_mem_nil⟩
  participants _ _ :=
    ⟨fun ⟨_, hp, _⟩ => absurd hp List.not_mem_nil, fun ⟨_, ha, _⟩ => absurd ha List.not_mem_nil⟩

omit [DecidableEq Port] in
theorem Follows.lookup (hw : Follows port w attachments) :
    KeyedList.lookup Connected.clientId c w.connected = if c ∈
      attachments.map Attachment.clientId then some ⟨c, [port c]⟩ else none := by
  have hdistinct : KeyedList.Distinct Connected.clientId w.connected := by
    rw [hw.connected, KeyedList.Distinct, List.map_map]
    exact hw.distinct
  split
  · next hc =>
    obtain ⟨a, ha, rfl⟩ := List.mem_map.mp hc
    exact hdistinct.lookup_iff.mpr ⟨hw.connected ▸ List.mem_map_of_mem ha, rfl⟩
  · next hc =>
    refine KeyedList.lookup_eq_none.mpr fun x hx heq => hc ?_
    rw [hw.connected] at hx
    obtain ⟨a, ha, rfl⟩ := List.mem_map.mp hx
    exact List.mem_map.mpr ⟨a, ha, heq⟩

omit [DecidableEq Port] in
theorem Follows.portsOf (hw : Follows port w attachments) :
    w.portsOf c = if c ∈ attachments.map Attachment.clientId then [port c] else [] := by
  unfold WorkerPorts.portsOf
  rw [hw.lookup]
  by_cases hc : c ∈ attachments.map Attachment.clientId
  · rw [if_pos hc, if_pos hc]
  · rw [if_neg hc, if_neg hc]

theorem Follows.register (hw : Follows port w attachments)
    (hroom : c ∈ attachments.map Attachment.clientId ∨ attachments.length < maxParticipants)
    (identities : Port → Option Identifier) :
    register ⟨identities, w.connected, w.broker⟩ (port c) c =
      some ⟨identities, KeyedList.put Connected.clientId ⟨c, [port c]⟩ w.connected, w.broker⟩ := by
  unfold WorkerPorts.register
  rw [hw.lookup]
  by_cases hc : c ∈ attachments.map Attachment.clientId
  · rw [if_pos hc]
    have hports : ¬ (port c ∉ [port c] ∧ [port c].length ≥ maxPortsPerParticipant) :=
      fun h => h.1 (List.mem_singleton_self _)
    have hput : KeyedList.put id (port c) [port c] = [port c] := if_pos rfl
    simp only [if_neg hports, hput]
  · have hlength : w.connected.length = attachments.length := by rw [hw.connected, List.length_map]
    have hlt := hroom.resolve_left hc
    rw [if_neg hc]
    exact if_neg (by dsimp only; omega)

omit [DecidableEq Port] in
/-- A hello within the limits makes the tables follow the new attachment. -/
theorem Follows.hello (hw : Follows port w attachments) {names : List ConfigName}
    {identities : Port → Option Identifier}
    (hidentities : ∀ c', identities (port c') = if c' = c then some c else w.identities (port c'))
    (hlimits : WithinLimits (KeyedList.put Attachment.clientId ⟨c, names⟩ attachments)) :
    Follows port ⟨identities, KeyedList.put Connected.clientId ⟨c, [port c]⟩ w.connected,
      w.broker.takePart c names⟩
      (KeyedList.put Attachment.clientId ⟨c, names⟩ attachments) := by
  have hmem : ∀ {a}, a ∈ KeyedList.put Attachment.clientId ⟨c, names⟩ attachments ↔
      a = ⟨c, names⟩ ∨ (a ∈ attachments ∧ a.clientId ≠ c) :=
    hw.distinct.mem_put
  have hothers : ∀ name c', w.broker.Has name c' → c' ≠ c →
      name ∈ attachedNames (KeyedList.put Attachment.clientId ⟨c, names⟩ attachments) := by
    intro name c' hhas hne
    obtain ⟨a, ha, rfl, hname⟩ := (hw.participants name c').mp hhas
    exact mem_attachedNames.mpr ⟨a, hmem.mpr (Or.inr ⟨ha, hne⟩), hname⟩
  obtain ⟨htidy, hhas⟩ := Broker.takePart_spec hlimits.configurations hw.tidy hothers
    fun name hname => mem_attachedNames.mpr ⟨_, hmem.mpr (Or.inl rfl), hname⟩
  refine ⟨hw.distinct.put_self, fun c' => ?_, ?_, htidy, fun name c' => ?_⟩
  · refine (hidentities c').trans ?_
    rw [hw.identities]
    by_cases hc : c' = c
    · subst hc
      rw [if_pos rfl, if_pos (List.mem_map.mpr ⟨_, hmem.mpr (Or.inl rfl), rfl⟩)]
    · have hiff : c' ∈ (KeyedList.put Attachment.clientId ⟨c, names⟩ attachments).map
          Attachment.clientId ↔
          c' ∈ attachments.map Attachment.clientId := by
        simp only [List.mem_map]
        constructor
        · rintro ⟨a, ha, rfl⟩
          rcases hmem.mp ha with rfl | ⟨ha, _⟩
          · exact absurd rfl hc
          · exact ⟨a, ha, rfl⟩
        · rintro ⟨a, ha, rfl⟩
          exact ⟨a, hmem.mpr (Or.inr ⟨ha, hc⟩), rfl⟩
      simp only [if_neg hc, hiff]
  · rw [hw.connected]
    change KeyedList.put Connected.clientId (connectedAs port ⟨c, names⟩)
      (attachments.map (connectedAs port)) = _
    exact (KeyedList.map_put fun _ => rfl).symm
  · rw [hhas]
    split
    · next hc =>
      subst hc
      constructor
      · exact fun hname => ⟨_, hmem.mpr (Or.inl rfl), rfl, hname⟩
      · rintro ⟨a, ha, hac, hname⟩
        rcases hmem.mp ha with rfl | ⟨_, hne⟩
        · exact hname
        · exact absurd hac hne
    · next hc =>
      rw [hw.participants]
      constructor
      · rintro ⟨a, ha, rfl, hname⟩
        exact ⟨a, hmem.mpr (Or.inr ⟨ha, hc⟩), rfl, hname⟩
      · rintro ⟨a, ha, rfl, hname⟩
        rcases hmem.mp ha with rfl | ⟨ha, _⟩
        · exact absurd rfl hc
        · exact ⟨a, ha, rfl, hname⟩

/-- A message of an attached context that is no hello finds the tables as they are and leaves them
so. -/
theorem Follows.admit_of_attached (hw : Follows port w attachments)
    (hc : m.sender ∈ attachments.map Attachment.clientId) :
    w.admitted workerId (port m.sender) m =
      ({ w with
      broker := (w.broker.handleMessage (attachments.map Attachment.clientId) m.sender m).1 },
        (match m.body with
          | .hello _ => [(port m.sender, welcomeFor m.sender workerId)] | _ => []) ++
          w.deliver m (w.broker.handleMessage (attachments.map Attachment.clientId)
            m.sender m).2) := by
  have hput : KeyedList.put Connected.clientId ⟨m.sender,
      [port m.sender]⟩ w.connected = w.connected := by
    refine KeyedList.put_of_lookup ?_
    rw [hw.lookup, if_pos hc]
  have hclients : w.connected.map Connected.clientId = attachments.map Attachment.clientId := by
    rw [hw.connected, List.map_map]
    rfl
  have hregister := hw.register (Or.inl hc) w.identities
  rw [hput] at hregister
  unfold admitted
  rewrite [hregister, ← hclients]
  rfl

theorem Follows.admit_hello (hw : Follows port w attachments)
    {names : {names : List ConfigName // names.length ≤ maxHelloConfigurations}}
    (hbody : m.body = .hello names) (identities : Port → Option Identifier)
    (hlimits : WithinLimits (KeyedList.put Attachment.clientId ⟨m.sender, names⟩ attachments)) :
    (admitted ⟨identities, w.connected, w.broker⟩ workerId (port m.sender) m).1 =
      ⟨identities, KeyedList.put Connected.clientId ⟨m.sender, [port m.sender]⟩ w.connected,
        w.broker.takePart m.sender names⟩ := by
  have hroom : m.sender ∈ attachments.map Attachment.clientId ∨
      attachments.length < maxParticipants := by
    by_cases hc : m.sender ∈ attachments.map Attachment.clientId
    · exact Or.inl hc
    · have hnone : KeyedList.lookup Attachment.clientId m.sender attachments = none :=
        KeyedList.lookup_eq_none.mpr fun a ha heq => hc (List.mem_map.mpr ⟨a, ha, heq⟩)
      have hlength := hlimits.participants
      rw [KeyedList.put_of_lookup_none hnone, List.length_append] at hlength
      exact Or.inr hlength
  unfold admitted
  rw [hw.register hroom identities]
  simp only [Broker.handleMessage, hbody]

theorem Broker.handleMessage_fst {b : Broker} {clients : List Identifier}
    (hbody : ∀ names, m.body ≠ .hello names) :
    (b.handleMessage clients c m).1 = b := by
  unfold Broker.handleMessage
  split
  · next names h => exact absurd h (hbody names)
  all_goals rfl

/-- Every message that arrives keeps the tables as the attachments say. -/
theorem Follows.receive (hw : Follows port w attachments) (workerId : Identifier)
    (hport : Function.Injective port) {arrival : Arrival}
    (hself : ∀ m, decodeMessage arrival.heap arrival.raw = .ok m → m.sender = arrival.clientId)
    (hbroker : arrival.clientId ≠ brokerId)
    (hlimits : WithinLimits (arrival.attach attachments)) :
    Follows port (w.receive workerId (port arrival.clientId) arrival.heap arrival.raw).1
    (arrival.attach attachments) := by
  unfold WorkerPorts.receive
  cases hdecode : decodeMessage arrival.heap arrival.raw with
  | error failure =>
    have hother : ∀ m, decodeMessage arrival.heap arrival.raw = .ok m →
        ∀ names, m.body ≠ .hello names := fun m hm => by
      rw [hdecode] at hm; cases hm
    rw [Arrival.attach_other hother]
    cases failure with
    | versionMismatch version => dsimp only; split <;> exact hw
    | _ => exact hw
  | ok m =>
    have hsender := hself m hdecode
    rw [← hsender] at hbroker
    rw [← hsender, hw.identities]
    by_cases hhello : ∃ names, m.body = .hello names
    · obtain ⟨names, hbody⟩ := hhello
      rw [Arrival.attach_hello hdecode hbody, ← hsender] at hlimits ⊢
      by_cases hc : m.sender ∈ attachments.map Attachment.clientId
      · rw [if_pos hc]
        dsimp only
        rw [if_neg fun h => h rfl, hw.admit_hello hbody w.identities hlimits]
        refine hw.hello (fun c' => ?_) hlimits
        split
        · next heq => rw [heq, hw.identities, if_pos hc]
        · rfl
      · rw [if_neg hc]
        simp only [hbody]
        rw [if_neg hbroker, hw.admit_hello hbody _ hlimits]
        refine hw.hello (fun c' => ?_) hlimits
        split
        · next heq => rw [heq, Function.update_self]
        · next hne => rw [Function.update_of_ne (hport.ne hne)]
    · have hother : ∀ names, m.body ≠ .hello names := fun names hnames => hhello ⟨names, hnames⟩
      have hkept : arrival.attach attachments = attachments := Arrival.attach_other fun m' hm' => by
        rw [hdecode] at hm'
        exact Except.ok.inj hm' ▸ hother
      rw [hkept]
      by_cases hc : m.sender ∈ attachments.map Attachment.clientId
      · rw [if_pos hc]
        dsimp only
        rw [if_neg fun h => h rfl, hw.admit_of_attached hc, Broker.handleMessage_fst hother]
        exact hw
      · rw [if_neg hc]
        dsimp only
        split
        · next names hbody => exact absurd hbody (hother names)
        · exact hw

/-- The worker after the messages that arrived on the ports of the contexts. -/
def hear (workerId : Identifier) (port : Identifier → Port) (arrivals : List Arrival)
    (w : WorkerPorts Port) : WorkerPorts Port :=
  arrivals.foldl (fun w arrival =>
    (w.receive workerId (port arrival.clientId) arrival.heap arrival.raw).1) w

end WorkerPorts

/-- Messages that contexts said under their own identities, and that the worker's limits had room
for at every moment. -/
structure Admissible (arrivals : List Arrival) : Prop where
  self : ∀ arrival ∈ arrivals, ∀ m, decodeMessage arrival.heap arrival.raw = .ok m →
    m.sender = arrival.clientId
  notBroker : ∀ arrival ∈ arrivals, arrival.clientId ≠ brokerId
  limits : ∀ n, WithinLimits (attachmentsOf (arrivals.take n))

/-- The context's `onMessage` is called with the message, when its sender posts it to the worker. -/
def ReceivesOverWorker {Port : Type} [DecidableEq Port] (w : WorkerPorts Port)
    (workerId : Identifier) (port : Identifier → Port)
    (h : JsHeap) (raw : JsValue) (m : Message) (a : Attachment) : Prop :=
  ∃ posted ∈ (w.receive workerId (port m.sender) h raw).2, posted.1 = port a.clientId ∧
    SharedWorkerTransport.receive a.clientId (posted.2.post h).1 (posted.2.post h).2 = some m

/-- The context's `onMessage` is called with the message, when its sender posts it on the
channel. -/
def ReceivesOverChannel (h : JsHeap) (raw : JsValue) (m : Message) (a : Attachment) : Prop :=
  BroadcastChannelTransport.receive a.clientId a.names h raw = some m

section

variable {Port : Type} [DecidableEq Port] {port : Identifier → Port} {w : WorkerPorts Port}
  {attachments : List Attachment} {a : Attachment}
  {workerId : Identifier} {h : JsHeap} {raw : JsValue} {m : Message}

open WorkerPorts BroadcastChannelTransport

theorem follows_hear (workerId : Identifier) (hport : Function.Injective port)
    {arrivals : List Arrival}
    (hself : ∀ arrival ∈ arrivals, ∀ m, decodeMessage arrival.heap arrival.raw = .ok m →
      m.sender = arrival.clientId)
    (hbroker : ∀ arrival ∈ arrivals, arrival.clientId ≠ brokerId)
    (hlimits : ∀ n, WithinLimits ((arrivals.take n).foldl Arrival.attach attachments))
    (hw : Follows port w attachments) :
    Follows port (hear workerId port arrivals w) (arrivals.foldl Arrival.attach attachments) := by
  induction arrivals generalizing w attachments with
  | nil => exact hw
  | cons arrival arrivals ih =>
    have hnext := hw.receive workerId hport (hself arrival List.mem_cons_self)
        (hbroker arrival List.mem_cons_self)
      (hlimits 1)
    exact ih (fun a ha => hself a (List.mem_cons_of_mem _ ha)) (fun a ha =>
        hbroker a (List.mem_cons_of_mem _ ha))
      (fun n => hlimits (n + 1)) hnext

theorem Admissible.follows (workerId : Identifier) (hport : Function.Injective port)
    {arrivals : List Arrival} (h : Admissible arrivals) :
    Follows port (hear workerId port arrivals fresh) (attachmentsOf arrivals) :=
  follows_hear workerId hport h.self h.notBroker h.limits follows_fresh

/-! ### who receives a message -/

theorem receivesOverChannel_iff (hdecode : decodeMessage h raw = .ok m) :
    ReceivesOverChannel h raw m a ↔
    m.body.type ∉ brokerMessageTypes ∧ m.sender ≠ a.clientId ∧
      isAddressedToUs a.clientId a.names m = true := by
  unfold ReceivesOverChannel BroadcastChannelTransport.receive
  rw [hdecode]
  dsimp only
  by_cases htype : m.body.type ∈ brokerMessageTypes
  · simp [htype]
  · by_cases hsender : m.sender = a.clientId
    · simp [hsender]
    · simp [htype, hsender]

theorem sharedWorker_receive {d : Identifier} {m' : Message} (hsound : m'.body.Sound .walked h) :
    SharedWorkerTransport.receive d (m'.post h).1 (m'.post h).2 = some m ↔
      m' = m ∧ m.body.type ≠ .welcome ∧ m.body.type ≠ .workerLog ∧ m.sender ≠ d := by
  unfold SharedWorkerTransport.receive
  rw [decodeMessage_post hsound]
  dsimp only
  constructor
  · intro heq
    split at heq
    · cases heq
    · cases heq
    · next hwelcome hlog =>
      obtain ⟨hsender, heq⟩ := Option.ite_none_left_eq_some.mp heq
      obtain rfl := Option.some.inj heq
      refine ⟨rfl, fun htype => ?_, fun htype => ?_, hsender⟩
      · cases hbody : m'.body <;> simp [hbody, Body.type] at htype
        exact hwelcome _ hbody
      · cases hbody : m'.body <;> simp [hbody, Body.type] at htype
        exact hlog _ hbody
  · rintro ⟨rfl, hwelcome, hlog, hsender⟩
    split
    · next hbody => exact absurd (by rw [hbody]; rfl) hwelcome
    · next hbody => exact absurd (by rw [hbody]; rfl) hlog
    · exact if_neg hsender

omit [DecidableEq Port] in
theorem mem_deliver (hw : Follows port w attachments) {clients : List Identifier}
    {posted : Port × Message} :
    posted ∈ w.deliver m clients ↔
      ∃ c ∈ clients, c ∈ attachments.map Attachment.clientId ∧ posted = (port c, m) := by
  simp only [WorkerPorts.deliver, List.mem_flatMap, hw.portsOf]
  refine exists_congr fun c => and_congr_right fun _ => ?_
  by_cases hc : c ∈ attachments.map Attachment.clientId
  · rw [if_pos hc, List.map_singleton, List.mem_singleton]
    exact (and_iff_right hc).symm
  · rw [if_neg hc, List.map_nil]
    exact ⟨fun hmem => absurd hmem List.not_mem_nil, fun hposted => absurd hposted.1 hc⟩

/-- Among the attached contexts, a message is received by those the broker delivers it to, but for
its sender. -/
theorem receivesOverWorker_iff (workerId : Identifier) (hport : Function.Injective port)
    (hw : Follows port w attachments) (hdecode : decodeMessage h raw = .ok m)
    (hsender : m.sender ∈ attachments.map Attachment.clientId) (ha : a ∈ attachments) :
    ReceivesOverWorker w workerId port h raw m a ↔
      m.body.type ≠ .welcome ∧ m.body.type ≠ .workerLog ∧ m.sender ≠ a.clientId ∧
      a.clientId ∈ (w.broker.handleMessage (attachments.map Attachment.clientId) m.sender m).2 := by
  have hsound : m.body.Sound .walked h := (decodeMessage_eq_ok.mp hdecode).sound
  have hreceive : w.receive workerId (port m.sender) h raw = w.admitted workerId
      (port m.sender) m := by
    unfold WorkerPorts.receive
    rw [hdecode, hw.identities, if_pos hsender]
    exact if_neg fun hne => hne rfl
  unfold ReceivesOverWorker
  rw [hreceive, hw.admit_of_attached hsender]
  constructor
  · rintro ⟨posted, hposted, hto, hreceived⟩
    rcases List.mem_append.mp hposted with hwelcome | hdeliver
    · split at hwelcome
      · obtain rfl := List.mem_singleton.mp hwelcome
        have hwelcome : (welcomeFor m.sender workerId).body.Sound .walked h := trivial
        obtain ⟨heq, hne, _⟩ := (sharedWorker_receive hwelcome).mp hreceived
        exact absurd (congrArg (fun m => m.body.type) heq).symm hne
      · exact absurd hwelcome List.not_mem_nil
    · obtain ⟨c, hc, _, rfl⟩ := (mem_deliver hw).mp hdeliver
      obtain ⟨_, hwelcome, hlog, hne⟩ := (sharedWorker_receive hsound).mp hreceived
      rw [hport hto] at hc
      exact ⟨hwelcome, hlog, hne, hc⟩
  · rintro ⟨hwelcome, hlog, hne, hmem⟩
    refine ⟨(port a.clientId, m), List.mem_append_right _ ?_, rfl,
      (sharedWorker_receive hsound).mpr ⟨rfl, hwelcome, hlog, hne⟩⟩
    exact (mem_deliver hw).mpr ⟨_, hmem, List.mem_map_of_mem ha, rfl⟩

omit [DecidableEq Port] in
/-- What is about one configuration goes to the same contexts either way. -/
theorem mem_route_iff (hw : Follows port w attachments) (ha : a ∈ attachments)
    (hne : m.sender ≠ a.clientId) {name : ConfigName}
    (hname : m.body.configName? = some name) :
    a.clientId ∈ w.broker.route m m.sender ↔ isAddressedToUs a.clientId a.names m = true := by
  unfold Broker.route isAddressedToUs
  by_cases htarget : m.target ≠ toAll
  · rw [if_pos htarget, if_pos htarget, List.mem_singleton, decide_eq_true_iff, eq_comm]
  · rw [if_neg htarget, if_neg htarget, hname]
    simp only [List.mem_filter, Broker.mem_participantsOf hw.tidy, hw.participants,
      decide_eq_true_iff]
    constructor
    · rintro ⟨⟨a', ha', hclient, hmem⟩, _⟩
      rwa [hw.distinct.eq_of_mem ha' ha hclient] at hmem
    · exact fun hmem => ⟨⟨a, ha, rfl, hmem⟩, hne.symm⟩

theorem addressedToUs_of_no_configuration {clientId : Identifier} {attached : List ConfigName}
    (hname : m.body.configName? = none) :
    isAddressedToUs clientId attached m = true ↔ m.target = toAll ∨ m.target = clientId := by
  unfold isAddressedToUs
  by_cases htarget : m.target = toAll
  · simp [htarget, hname]
  · simp [htarget]

/-- The messages both transports take to the same contexts: a request for diagnostics that is for
every context, or for every context there is but its sender, and a report that is for one. -/
def RoutedAlike (attachments : List Attachment) (m : Message) : Prop :=
  match m.body with
  | .diagnosticsRequest _ =>
    m.target = toAll ∨ ∀ a ∈ attachments, m.sender ≠ a.clientId → a.clientId = m.target
  | .diagnosticsReport .. => m.target ≠ toAll ∨ ∀ a ∈ attachments, m.sender = a.clientId
  | _ => True

instance : Decidable (RoutedAlike attachments m) := by
  unfold RoutedAlike
  split <;> infer_instance

theorem alike_iff_routedAlike (hport : Function.Injective port) (hw : Follows port w attachments)
    (hdecode : decodeMessage h raw = .ok m)
    (hsender : m.sender ∈ attachments.map Attachment.clientId) :
    (∀ a ∈ attachments, ReceivesOverWorker w workerId port h raw m a ↔
      ReceivesOverChannel h raw m a) ↔ RoutedAlike attachments m := by
  have hworker : ∀ a ∈ attachments, _ := fun a ha =>
    receivesOverWorker_iff (a := a) workerId hport hw hdecode hsender ha
  have hchannel := fun a => receivesOverChannel_iff (a := a) hdecode
  unfold RoutedAlike
  split
  · next requestId hbody =>
    have htype : m.body.type = .diagnosticsRequest := by rw [hbody]; rfl
    have hworker' : ∀ a ∈ attachments, ReceivesOverWorker w workerId port h raw m a ↔
        m.sender ≠ a.clientId := by
      intro a ha
      have hclient := List.mem_map_of_mem (f := Attachment.clientId) ha
      simp only [hworker a ha, Broker.handleMessage, hbody, List.mem_filter, hclient,
        decide_eq_true_iff]
      tauto
    have hchannel' : ∀ a, ReceivesOverChannel h raw m a ↔
        m.sender ≠ a.clientId ∧ (m.target = toAll ∨ m.target = a.clientId) := by
      intro a
      have hname : m.body.configName? = none := by rw [hbody]; rfl
      rw [hchannel, addressedToUs_of_no_configuration hname, htype]
      exact and_iff_right (by decide)
    constructor
    · intro halike
      by_contra hcontra
      obtain ⟨htarget, hnot⟩ := not_or.mp hcontra
      refine hnot fun a ha hne => ?_
      exact ((((hchannel' a).mp ((halike a ha).mp ((hworker' a ha).mpr hne))).2).resolve_left
        htarget).symm
    · intro hplain a ha
      rw [hworker' a ha, hchannel']
      refine ⟨fun hne => ⟨hne, ?_⟩, fun h => h.1⟩
      exact hplain.imp_right fun honly => (honly a ha hne).symm
  · next requestId report hbody =>
    have htype : m.body.type = .diagnosticsReport := by rw [hbody]; rfl
    have hname : m.body.configName? = none := by rw [hbody]; rfl
    have hworker' : ∀ a ∈ attachments, ReceivesOverWorker w workerId port h raw m a ↔
        m.sender ≠ a.clientId ∧ m.target ≠ toAll ∧ m.target = a.clientId := by
      intro a ha
      have hdelivered :
          w.broker.handleMessage (attachments.map Attachment.clientId) m.sender m = (w.broker,
          w.broker.route m m.sender) := by
        unfold Broker.handleMessage
        rw [hbody]
      rw [hworker a ha, htype, hdelivered, Broker.route, hname]
      by_cases htarget : m.target = toAll
      · simp [htarget]
      · simp [htarget, eq_comm]
    have hchannel' : ∀ a, ReceivesOverChannel h raw m a ↔
        m.sender ≠ a.clientId ∧ (m.target = toAll ∨ m.target = a.clientId) := by
      intro a
      rw [hchannel, addressedToUs_of_no_configuration hname, htype]
      exact and_iff_right (by decide)
    constructor
    · intro halike
      by_contra hcontra
      obtain ⟨htarget, hnot⟩ := not_or.mp hcontra
      refine hnot fun a ha => ?_
      by_contra hne
      exact ((hworker' a ha).mp
        ((halike a ha).mpr ((hchannel' a).mpr ⟨hne, Or.inl (not_not.mp htarget)⟩))).2.1
        (not_not.mp htarget)
    · intro hplain a ha
      rw [hworker' a ha, hchannel']
      constructor
      · exact fun ⟨hne, _, htarget⟩ => ⟨hne, Or.inr htarget⟩
      · rintro ⟨hne, htarget⟩
        have hone := hplain.resolve_right fun honly => hne (honly a ha)
        exact ⟨hne, hone, htarget.resolve_left hone⟩
  · next hrequest hreport =>
    refine iff_of_true (fun a ha => ?_) trivial
    rw [hworker a ha, hchannel]
    cases hname : m.body.configName? with
    | none =>
      have htype : m.body.type ∈ brokerMessageTypes := by
        cases hbody : m.body with
        | hello _ | welcome _ | workerLog _ => simp [Body.type, brokerMessageTypes]
        | diagnosticsRequest requestId => exact absurd hbody (hrequest requestId)
        | diagnosticsReport requestId report => exact absurd hbody (hreport requestId report)
        | _ => rw [hbody] at hname; cases hname
      refine iff_of_false (fun hreceived => ?_) fun hreceived => hreceived.1 htype
      obtain ⟨hwelcome, hlog, _, hmem⟩ := hreceived
      cases hbody : m.body with
      | hello names =>
        simp only [Broker.handleMessage, hbody] at hmem
        exact absurd hmem List.not_mem_nil
      | welcome worker => exact hwelcome (by rw [hbody]; rfl)
      | workerLog record => exact hlog (by rw [hbody]; rfl)
      | diagnosticsRequest requestId => exact hrequest requestId hbody
      | diagnosticsReport requestId report => exact hreport requestId report hbody
      | _ => rw [hbody] at hname; cases hname
    | some name =>
      have hdelivered :
          w.broker.handleMessage (attachments.map Attachment.clientId) m.sender m = (w.broker,
          w.broker.route m m.sender) := by
        unfold Broker.handleMessage
        cases hbody : m.body with
        | hello _ | welcome _ | workerLog _ | diagnosticsRequest _ =>
          rw [hbody] at hname; cases hname
        | _ => rfl
      have htype : m.body.type ∉ brokerMessageTypes := by
        cases hbody : m.body with
        | hello _ | welcome _ | workerLog _ => rw [hbody] at hname; cases hname
        | _ => simp [Body.type, brokerMessageTypes]
      rw [hdelivered]
      constructor
      · rintro ⟨_, _, hne, hmem⟩
        exact ⟨htype, hne, (mem_route_iff hw ha hne hname).mp hmem⟩
      · rintro ⟨_, hne, haddressed⟩
        refine ⟨fun heq => htype (by simp [heq, brokerMessageTypes]),
          fun heq => htype (by simp [heq, brokerMessageTypes]), hne, ?_⟩
        exact (mem_route_iff hw ha hne hname).mpr haddressed

/-- **Whatever the contexts said to the worker within its limits, both transports take a message to
the same contexts exactly if it is no request for diagnostics addressed to one of several contexts,
and no report of them addressed to all; and never to its sender.** -/
theorem routes_alike_iff {arrivals : List Arrival} (hport : Function.Injective port)
    (hadmissible : Admissible arrivals)
    (hdecode : decodeMessage h raw = .ok m)
    (hsender : m.sender ∈ (attachmentsOf arrivals).map Attachment.clientId) :
    ((∀ a ∈ attachmentsOf arrivals, ReceivesOverWorker (hear workerId port arrivals fresh) workerId
      port h raw m a ↔
        ReceivesOverChannel h raw m a) ↔ RoutedAlike (attachmentsOf arrivals) m) ∧
      ∀ a ∈ attachmentsOf arrivals, a.clientId = m.sender →
        ¬ ReceivesOverWorker (hear workerId port arrivals fresh) workerId port h raw m a ∧
          ¬ ReceivesOverChannel h raw m a := by
  have hw := hadmissible.follows workerId hport
  refine ⟨alike_iff_routedAlike hport hw hdecode hsender, fun a ha heq =>
    ⟨fun hreceived => ?_, fun hreceived => ?_⟩⟩
  · exact ((receivesOverWorker_iff workerId hport hw hdecode hsender ha).mp hreceived).2.2.1
      heq.symm
  · exact ((receivesOverChannel_iff hdecode).mp hreceived).2.1 heq.symm

end

/-! ### three contexts, and a request for diagnostics addressed to one of them -/

def observer : Identifier := ⟨js "observer", by decide, by decide⟩

def firstTab : Identifier := ⟨js "tab 1", by decide, by decide⟩

def secondTab : Identifier := ⟨js "tab 2", by decide, by decide⟩

/-- The hello of a context that is attached to nothing. -/
def bareHello (clientId : Identifier) : Message := ⟨clientId, toAll, .hello ⟨[], Nat.zero_le _⟩⟩

def helloArrival (clientId : Identifier) : Arrival :=
  ⟨clientId, ((bareHello clientId).post []).1, ((bareHello clientId).post []).2⟩

def threeContexts : List Identifier := [observer, firstTab, secondTab]

theorem decodeMessage_helloArrival (clientId : Identifier) :
    decodeMessage (helloArrival clientId).heap
    (helloArrival clientId).raw = .ok (bareHello clientId) := by
  have hsound : (bareHello clientId).body.Sound .walked [] := trivial
  exact decodeMessage_post hsound

theorem attach_helloArrival {clientId : Identifier} {attachments : List Attachment} :
    (helloArrival clientId).attach attachments = KeyedList.put Attachment.clientId ⟨clientId,
      []⟩ attachments := by
  rw [Arrival.attach_hello (decodeMessage_helloArrival clientId) rfl]
  rfl

theorem attachmentsOf_hellos (clients : List Identifier) :
    attachmentsOf (clients.map helloArrival) =
    clients.foldl (fun attachments clientId =>
      KeyedList.put Attachment.clientId ⟨clientId, []⟩ attachments) [] := by
  simp only [attachmentsOf, List.foldl_map, attach_helloArrival]

theorem length_put_unattached (attachments : List Attachment) (clientId : Identifier) :
    (KeyedList.put Attachment.clientId ⟨clientId, []⟩ attachments).length ≤ attachments.length +
      1 := KeyedList.length_put_le

theorem withinLimits_hellos {clients : List Identifier}
    (hlength : clients.length ≤ maxParticipants) :
    WithinLimits (attachmentsOf (clients.map helloArrival)) := by
  rw [attachmentsOf_hellos]
  have hfold : ∀ (clients : List Identifier) (attachments : List Attachment),
      (∀ a ∈ attachments, a.names = []) →
      (clients.foldl (fun attachments clientId =>
        KeyedList.put Attachment.clientId ⟨clientId, []⟩ attachments) attachments).length ≤
          attachments.length + clients.length ∧
        ∀ a ∈ clients.foldl (fun attachments clientId =>
          KeyedList.put Attachment.clientId ⟨clientId, []⟩ attachments) attachments,
          a.names = [] := by
    intro clients
    induction clients with
    | nil => exact fun attachments h => ⟨Nat.le_refl _, h⟩
    | cons clientId clients ih =>
      intro attachments h
      have hput : ∀ a ∈ KeyedList.put Attachment.clientId ⟨clientId, []⟩ attachments,
          a.names = [] := fun a ha =>
        (KeyedList.mem_of_mem_put ha).elim (fun heq => heq ▸ rfl) (h a)
      obtain ⟨hle, hnames⟩ := ih _ hput
      refine ⟨hle.trans ?_, hnames⟩
      have hone := length_put_unattached attachments clientId
      rw [List.length_cons]
      omega
  obtain ⟨hle, hnames⟩ := hfold clients [] fun a ha => absurd ha List.not_mem_nil
  refine ⟨hle.trans (by simpa using hlength), ?_⟩
  have hempty : attachedNames (clients.foldl (fun attachments clientId =>
      KeyedList.put Attachment.clientId ⟨clientId, []⟩ attachments) []) = ∅ := by
    refine Finset.eq_empty_of_forall_notMem fun name hname => ?_
    obtain ⟨a, ha, hmem⟩ := mem_attachedNames.mp hname
    rw [hnames a ha] at hmem
    exact absurd hmem List.not_mem_nil
  rw [hempty]
  exact Nat.zero_le _

theorem admissible_threeContexts : Admissible (threeContexts.map helloArrival) := by
  refine ⟨fun arrival harrival m hdecode => ?_, fun arrival harrival => ?_, fun n => ?_⟩
  · obtain ⟨clientId, _, rfl⟩ := List.mem_map.mp harrival
    rw [decodeMessage_helloArrival] at hdecode
    rw [← Except.ok.inj hdecode]
    rfl
  · obtain ⟨clientId, hclient, rfl⟩ := List.mem_map.mp harrival
    have hnone : ∀ clientId ∈ threeContexts, clientId ≠ brokerId := by decide
    exact hnone clientId hclient
  · rw [← List.map_take]
    refine withinLimits_hellos ((List.length_take_le' n threeContexts).trans ?_)
    exact Nat.le_of_ble_eq_true rfl

/-- A request for diagnostics that the observer addresses to the first tab. -/
def addressedRequest : Message :=
  ⟨observer, firstTab, .diagnosticsRequest ⟨js "1", by decide, by decide⟩⟩

theorem decodeMessage_addressedRequest :
    decodeMessage (addressedRequest.post []).1
    (addressedRequest.post []).2 = .ok addressedRequest := by
  have hsound : addressedRequest.body.Sound .walked [] := trivial
  exact decodeMessage_post hsound

theorem attachmentsOf_threeContexts :
    attachmentsOf (threeContexts.map helloArrival) = [⟨observer, []⟩, ⟨firstTab, []⟩,
      ⟨secondTab, []⟩] := by
  rw [attachmentsOf_hellos]
  decide

theorem routes_alike_iff_addressedRequest :
    (∀ a ∈ attachmentsOf (threeContexts.map helloArrival),
        ReceivesOverWorker
        (WorkerPorts.hear brokerId id (threeContexts.map helloArrival) .fresh) brokerId id
          (addressedRequest.post []).1 (addressedRequest.post []).2 addressedRequest a ↔
        ReceivesOverChannel (addressedRequest.post []).1
        (addressedRequest.post []).2 addressedRequest a) ↔
      RoutedAlike (attachmentsOf (threeContexts.map helloArrival)) addressedRequest :=
  (routes_alike_iff Function.injective_id admissible_threeContexts decodeMessage_addressedRequest
    (by rw [attachmentsOf_threeContexts]; exact List.mem_cons_self)).1

/-- The second tab receives over the worker what was addressed to the first. -/
theorem not_routes_alike : ¬ ∀ a ∈ attachmentsOf (threeContexts.map helloArrival),
    ReceivesOverWorker
    (WorkerPorts.hear brokerId id (threeContexts.map helloArrival) .fresh) brokerId id
      (addressedRequest.post []).1 (addressedRequest.post []).2 addressedRequest a ↔
    ReceivesOverChannel (addressedRequest.post []).1
    (addressedRequest.post []).2 addressedRequest a := by
  have hw := admissible_threeContexts.follows brokerId Function.injective_id
  rw [attachmentsOf_threeContexts] at hw ⊢
  rw [alike_iff_routedAlike Function.injective_id hw decodeMessage_addressedRequest
    List.mem_cons_self]
  decide

end SerialBroker.Wire
