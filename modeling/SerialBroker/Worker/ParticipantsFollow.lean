import SerialBroker.Lib.TransitionSystem
import SerialBroker.Worker.RoutesAlike

/-!
# The worker's tables follow the hellos

The runs of `WorkerPorts` of `worker/worker-ports.ts`: messages arrive on any port, and the browser
grants or refuses the requests by which the worker waits on the locks of the contexts. Beside the
tables a run keeps what happened, which alone says who is behind a port, on which ports a context is
heard, and what it takes part in. The tables say the same in every state a run reaches within the
limits.
-/

namespace SerialBroker.Wire

/-! ### what happened -/

inductive WorkerHappening (Port : Type)
  /-- A message the worker passed on, or took for a hello. -/
  | accepted (port : Port) (m : Message)
  | forgotten (clientId : Identifier)

/-- The latest first. -/
abbrev WorkerHistory (Port : Type) := List (WorkerHappening Port)

namespace WorkerHistory

variable {Port : Type} [DecidableEq Port]

/-- The identity a port first said hello as. -/
def identityOf : WorkerHistory Port → Port → Option Identifier
  | [], _ => none
  | .accepted port' m :: history, port =>
    (identityOf history port).or (if port' = port then some m.sender else none)
  | .forgotten _ :: history, port => identityOf history port

/-- What the latest hello of a client names, unless the client was forgotten since. -/
def namesOf : WorkerHistory Port → Identifier → List ConfigName
  | [], _ => []
  | .accepted _ m :: history, clientId =>
    match m.body with
    | .hello configNames => if m.sender = clientId then configNames else namesOf history clientId
    | _ => namesOf history clientId
  | .forgotten forgotten :: history, clientId =>
    if forgotten = clientId then [] else namesOf history clientId

/-- The ports a client was heard on since it was last forgotten. -/
def portsOf : WorkerHistory Port → Identifier → Finset Port
  | [], _ => ∅
  | .accepted port m :: history, clientId =>
    if m.sender = clientId then insert port (portsOf history clientId) else portsOf history clientId
  | .forgotten forgotten :: history, clientId =>
    if forgotten = clientId then ∅ else portsOf history clientId

/-- The clients that were heard since they were last forgotten. -/
def clients : WorkerHistory Port → Finset Identifier
  | [] => ∅
  | .accepted _ m :: history => insert m.sender (clients history)
  | .forgotten clientId :: history => (clients history).erase clientId

/-- The configurations somebody takes part in. -/
def configurations (history : WorkerHistory Port) : Finset ConfigName :=
  (clients history).biUnion fun clientId => (namesOf history clientId).toFinset

structure WithinLimits (history : WorkerHistory Port) : Prop where
  participants : (clients history).card ≤ maxParticipants
  ports : ∀ clientId ∈ clients history, (portsOf history clientId).card ≤ maxPortsPerParticipant
  configurations : (configurations history).card ≤ maxConfigurations

/-- A port speaks as the identity it said hello as, and a port that said none says it now. -/
def accepts (history : WorkerHistory Port) (port : Port) (m : Message) : Bool :=
  match identityOf history port with
  | none => decide (m.body.type = .hello ∧ m.sender ≠ brokerId)
  | some identity => decide (m.sender = identity)

/-- A message arrives. -/
def hear (history : WorkerHistory Port) (port : Port) (h : JsHeap) (raw : JsValue) :
    WorkerHistory Port :=
  match decodeMessage h raw with
  | .error _ => history
  | .ok m => if accepts history port m then .accepted port m :: history else history

end WorkerHistory

/-! ### the runs of a worker -/

/-- The set of ports that `#register` made for an identity, which `#forgetWhenGone` waits for. -/
structure Registration where
  clientId : Identifier
  number : ℕ
  deriving DecidableEq

structure WorkerRun (Port : Type) where
  tables : WorkerPorts Port
  registered : List Registration
  waits : List Registration
  made : ℕ
  history : WorkerHistory Port

inductive WorkerEvent (Port : Type)
  | receive (port : Port) (heap : JsHeap) (raw : JsValue)
  /-- The context's lock is granted to the worker. -/
  | granted (wait : Registration)
  /-- The request for it failed. -/
  | refused (wait : Registration)

/-- `#forget`. -/
def WorkerPorts.forget {Port : Type} (w : WorkerPorts Port) (clientId : Identifier) :
    WorkerPorts Port :=
  { w with
    connected := KeyedList.erase Connected.clientId clientId w.connected
    broker := w.broker.takePart clientId [] }

namespace WorkerRun

variable {Port : Type}

def fresh : WorkerRun Port := ⟨.fresh, [], [], 0, []⟩

/-- `#forgetWhenGone`, for an identity just registered. -/
def forgetWhenGone (s : WorkerRun Port) (clientId : Identifier) : WorkerRun Port :=
  { s with
    registered := s.registered ++ [⟨clientId, s.made⟩]
    waits := s.waits ++ [⟨clientId, s.made⟩]
    made := s.made + 1 }

variable [DecidableEq Port] (workerId : Identifier)

/-- `receive`, and the wait for an identity that was not connected before. -/
def receive (s : WorkerRun Port) (port : Port) (h : JsHeap) (raw : JsValue) : WorkerRun Port :=
  let tables := (s.tables.receive workerId port h raw).1
  let connects := (tables.connected.map Connected.clientId).filter
    (· ∉ s.tables.connected.map Connected.clientId)
  connects.foldl forgetWhenGone
    { s with tables, history := WorkerHistory.hear s.history port h raw }

/-- The lock is granted: the identity is forgotten if its ports are still those the wait was begun
for. -/
def granted (s : WorkerRun Port) (wait : Registration) : WorkerRun Port :=
  if KeyedList.lookup Registration.clientId wait.clientId s.registered = some wait then
    { s with
      tables := s.tables.forget wait.clientId
      registered := KeyedList.erase Registration.clientId wait.clientId s.registered
      history := .forgotten wait.clientId :: s.history }
  else s

def step (s : WorkerRun Port) : WorkerEvent Port → Option (WorkerRun Port)
  | .receive port h raw => some (s.receive workerId port h raw)
  | .granted wait =>
    if wait ∈ s.waits then some ({ s with waits := s.waits.erase wait }.granted wait) else none
  | .refused wait => if wait ∈ s.waits then some { s with waits := s.waits.erase wait } else none

/-- The message that arrives, if any, leaves the worker within its limits. -/
def StaysWithinLimits (s : WorkerRun Port) : WorkerEvent Port → Prop
  | .receive port h raw => WorkerHistory.WithinLimits (WorkerHistory.hear s.history port h raw)
  | _ => True

/-- The tables say what the history does. -/
structure FollowsHellos (s : WorkerRun Port) : Prop where
  participants : ∀ configName clientId,
    clientId ∈ s.tables.broker.participantsOf configName ↔
    configName ∈ WorkerHistory.namesOf s.history clientId
  inhabited : ∀ participants ∈ s.tables.broker.configurations, participants.clients ≠ []
  identities : ∀ port, s.tables.identities port = WorkerHistory.identityOf s.history port
  unchanged : ∀ event s' port identity, s.step workerId event = some s' →
    s.tables.identities port = some identity →
    s'.tables.identities port = some identity
  routed : ∀ port h raw, ∀ posted ∈ (s.tables.receive workerId port h raw).2,
    (∃ clientId, posted = (port, welcomeFor clientId workerId)) ∨
      ∃ m, decodeMessage h raw = .ok m ∧ posted.2 = m ∧
        WorkerHistory.identityOf s.history port = some m.sender
  delivered : ∀ port h raw m configName, decodeMessage h raw = .ok m → m.target = toAll →
    m.body.configName? = some configName →
    WorkerHistory.identityOf s.history port = some m.sender →
      s.StaysWithinLimits (.receive port h raw) →
      (s.tables.receive workerId port h raw).2.Nodup ∧
        (∀ posted, posted ∈ (s.tables.receive workerId port h raw).2 ↔ posted.2 = m ∧
          ∃ clientId, clientId ≠ m.sender ∧ configName ∈ WorkerHistory.namesOf s.history clientId ∧
            posted.1 ∈ WorkerHistory.portsOf s.history clientId) ∧
        ∀ port' ∈ WorkerHistory.portsOf s.history m.sender, (port', m) ∉
          (s.tables.receive workerId port h raw).2

end WorkerRun

/-- A worker, from its start. -/
def workerRuns (Port : Type) [DecidableEq Port] (workerId : Identifier) :
    TransitionSystem (WorkerRun Port) (WorkerEvent Port) where
  init := .fresh
  step := WorkerRun.step workerId

/-! ### what a history says of itself -/

namespace WorkerHistory

variable {Port : Type} [DecidableEq Port] {history : WorkerHistory Port} {port q : Port}
  {m : Message} {clientId c identity : Identifier}
  {configName : ConfigName}

omit [DecidableEq Port] in
theorem clients_accepted :
    clients (.accepted port m :: history) = insert m.sender (clients history) := rfl

omit [DecidableEq Port] in
theorem clients_forgotten :
    clients (.forgotten clientId :: history) = (clients history).erase clientId := rfl

theorem portsOf_accepted : portsOf (.accepted port m :: history) c =
    if m.sender = c then insert port (portsOf history c) else portsOf history c := rfl

theorem portsOf_forgotten : portsOf (.forgotten clientId :: history) c =
    if clientId = c then ∅ else portsOf history c := rfl

omit [DecidableEq Port] in
theorem namesOf_forgotten : namesOf (.forgotten clientId :: history) c =
    if clientId = c then [] else namesOf history c := rfl

theorem identityOf_accepted_cons : identityOf (.accepted port m :: history) q =
    (identityOf history q).or (if port = q then some m.sender else none) := rfl

theorem identityOf_cons (happening : WorkerHappening Port)
    (h : identityOf history q = some identity) :
    identityOf (happening :: history) q = some identity := by
  cases happening with
  | accepted port m => rw [identityOf_accepted_cons, h, Option.some_or]
  | forgotten clientId => exact h

theorem identityOf_accepted (h : accepts history port m = true) :
    identityOf (.accepted port m :: history) port = some m.sender := by
  rw [identityOf_accepted_cons, if_pos rfl]
  unfold accepts at h
  split at h
  case h_1 hnone => rw [hnone, Option.none_or]
  case h_2 identity hsome => rw [hsome, Option.some_or, of_decide_eq_true h]

theorem identityOf_accepted_of_ne (hne : port ≠ q) :
    identityOf (.accepted port m :: history) q = identityOf history q := by
  rw [identityOf_accepted_cons, if_neg hne, Option.or_none]

omit [DecidableEq Port] in
theorem mem_clients_of_names (h : configName ∈ namesOf history c) : c ∈ clients history := by
  induction history with
  | nil => cases h
  | cons happening history ih =>
    cases happening with
    | accepted port m =>
      rw [clients_accepted, Finset.mem_insert]
      rw [namesOf] at h
      split at h
      case h_1 =>
        split at h
        case isTrue hsender => exact .inl hsender.symm
        case isFalse => exact .inr (ih h)
      case h_2 => exact .inr (ih h)
    | forgotten clientId =>
      rw [clients_forgotten, Finset.mem_erase]
      rw [namesOf_forgotten] at h
      split at h
      case isTrue => cases h
      case isFalse hne => exact ⟨Ne.symm hne, ih h⟩

theorem portsOf_eq_empty (h : c ∉ clients history) : portsOf history c = ∅ := by
  induction history with
  | nil => rfl
  | cons happening history ih =>
    cases happening with
    | accepted port m =>
      rw [clients_accepted, Finset.mem_insert, not_or] at h
      rw [portsOf_accepted, if_neg (Ne.symm h.1)]
      exact ih h.2
    | forgotten clientId =>
      rw [portsOf_forgotten]
      split
      case isTrue => rfl
      case isFalse hne =>
        rw [clients_forgotten, Finset.mem_erase, not_and] at h
        exact ih (h (Ne.symm hne))

omit [DecidableEq Port] in
theorem mem_configurations :
    configName ∈ configurations history ↔ ∃ c, configName ∈ namesOf history c := by
  simp only [configurations, Finset.mem_biUnion, List.mem_toFinset]
  constructor
  · rintro ⟨c, _, hname⟩
    exact ⟨c, hname⟩
  · rintro ⟨c, hname⟩
    exact ⟨c, mem_clients_of_names hname, hname⟩

omit [DecidableEq Port] in
theorem namesOf_of_not_hello (h : ∀ names, m.body ≠ .hello names) :
    namesOf (.accepted port m :: history) c = namesOf history c := by
  rw [namesOf]
  split
  case h_1 names hbody => exact absurd hbody (h names)
  case h_2 => rfl

omit [DecidableEq Port] in
theorem namesOf_hello {names : {names : List ConfigName // names.length ≤ maxHelloConfigurations}}
    (h : m.body = .hello names) :
    namesOf (.accepted port m :: history) c = if m.sender = c then names.val
      else namesOf history c := by
  rw [namesOf, h]

/-- Every port a client is heard on speaks as the client. -/
def Consistent (history : WorkerHistory Port) : Prop :=
  ∀ c, ∀ q ∈ portsOf history c, identityOf history q = some c

theorem Consistent.accepted (h : Consistent history) (haccepts : accepts history port m = true) :
    Consistent (.accepted port m :: history) := by
  intro c q hq
  rw [portsOf_accepted] at hq
  split at hq
  case isTrue hsender =>
    rcases Finset.mem_insert.mp hq with rfl | hq
    · rw [identityOf_accepted haccepts, hsender]
    · exact identityOf_cons _ (h c q hq)
  case isFalse => exact identityOf_cons _ (h c q hq)

theorem Consistent.forgotten (h : Consistent history) :
    Consistent (.forgotten clientId :: history) := by
  intro c q hq
  rw [portsOf_forgotten] at hq
  split at hq
  case isTrue => exact absurd hq (Finset.notMem_empty q)
  case isFalse => exact identityOf_cons _ (h c q hq)

end WorkerHistory

/-! ### no client takes part twice -/

namespace Broker

variable {b : Broker} {clientId : Identifier} {configName : ConfigName} {names : List ConfigName}

def Simple (b : Broker) : Prop := ∀ participants ∈ b.configurations, participants.clients.Nodup

theorem Simple.leave (h : b.Simple) : (b.leave clientId names).Simple := by
  intro participants hmem
  obtain ⟨p, hp, ⟨_, rfl⟩ | ⟨_, _, rfl⟩⟩ := mem_leave.mp hmem
  · exact h participants hp
  · exact (h p hp).filter _

theorem nodup_put_id {α : Type*} [DecidableEq α] {a : α} {l : List α} (h : l.Nodup) :
    (KeyedList.put id a l).Nodup := by
  have hdistinct : KeyedList.Distinct id l := by rwa [KeyedList.Distinct, List.map_id]
  simpa [KeyedList.Distinct] using hdistinct.put_self (a := a)

theorem Simple.join (h : b.Simple) : (b.join clientId configName).Simple := by
  rw [Broker.join]
  split
  case h_1 participants hlookup =>
    intro participants' hmem
    rcases KeyedList.mem_of_mem_put hmem with rfl | hold
    · exact nodup_put_id (h participants (KeyedList.mem_of_lookup hlookup))
    · exact h participants' hold
  case h_2 =>
    split
    · exact h
    · intro participants' hmem
      rcases KeyedList.mem_of_mem_put hmem with rfl | hold
      · exact List.nodup_singleton clientId
      · exact h participants' hold

theorem Simple.takePart (h : b.Simple) : (b.takePart clientId names).Simple := by
  rw [Broker.takePart]
  have hfold : ∀ (names : List ConfigName) (b : Broker), b.Simple →
      (names.foldl (Broker.join · clientId) b).Simple := by
    intro names
    induction names with
    | nil => exact fun b h => h
    | cons name names ih => exact fun b h => ih _ h.join
  exact hfold _ _ h.leave

theorem nodup_participantsOf (h : b.Simple) : (b.participantsOf configName).Nodup := by
  rw [participantsOf]
  split
  case h_1 participants hlookup => exact h participants (KeyedList.mem_of_lookup hlookup)
  case h_2 => exact List.nodup_nil

end Broker

/-! ### the tables and the history -/

namespace WorkerPorts

open WorkerHistory (identityOf namesOf accepts)

variable {Port : Type} [DecidableEq Port] {w : WorkerPorts Port} {history : WorkerHistory Port}
  {workerId c : Identifier}
  {port q : Port} {m : Message} {h : JsHeap} {raw : JsValue}

/-- The tables are those of the history. -/
structure Tracks (w : WorkerPorts Port) (history : WorkerHistory Port) : Prop where
  identities : ∀ port, w.identities port = identityOf history port
  distinct : KeyedList.Distinct Connected.clientId w.connected
  clients : ∀ c, c ∈ WorkerHistory.clients history ↔
    ∃ connected ∈ w.connected, connected.clientId = c
  ports : ∀ connected ∈ w.connected, connected.ports.Nodup ∧ ∀ q, q ∈ connected.ports ↔
    q ∈ WorkerHistory.portsOf history connected.clientId
  tidy : w.broker.Tidy
  simple : w.broker.Simple
  participants : ∀ configName c, w.broker.Has configName c ↔ configName ∈ namesOf history c
  consistent : WorkerHistory.Consistent history

theorem Tracks.fresh : Tracks (.fresh : WorkerPorts Port) [] where
  identities _ := rfl
  distinct := List.nodup_nil
  clients c := by simp [WorkerHistory.clients, WorkerPorts.fresh]
  ports connected hmem := absurd hmem List.not_mem_nil
  tidy := ⟨List.nodup_nil, fun participants hmem => absurd hmem List.not_mem_nil⟩
  simple participants hmem := absurd hmem List.not_mem_nil
  participants configName c := by simp [Broker.Has, WorkerPorts.fresh, namesOf]
  consistent c q hq := absurd hq (Finset.notMem_empty q)

theorem Tracks.mem_portsOf (hw : w.Tracks history) :
    q ∈ w.portsOf c ↔ q ∈ WorkerHistory.portsOf history c := by
  rw [WorkerPorts.portsOf]
  split
  case h_1 connected hlookup =>
    obtain ⟨hmem, rfl⟩ := hw.distinct.lookup_iff.mp hlookup
    exact (hw.ports connected hmem).2 q
  case h_2 hnone =>
    have hunknown : c ∉ WorkerHistory.clients history := fun hc => by
      obtain ⟨connected, hmem, hclient⟩ := (hw.clients c).mp hc
      exact KeyedList.lookup_eq_none.mp hnone connected hmem hclient
    rw [WorkerHistory.portsOf_eq_empty hunknown]
    simp

theorem Tracks.nodup_portsOf (hw : w.Tracks history) : (w.portsOf c).Nodup := by
  rw [WorkerPorts.portsOf]
  split
  case h_1 connected hlookup => exact (hw.ports connected (KeyedList.mem_of_lookup hlookup)).1
  case h_2 => exact List.nodup_nil

theorem Tracks.length_connected (hw : w.Tracks history) :
    w.connected.length = (WorkerHistory.clients history).card := by
  have hclients : (w.connected.map
      Connected.clientId).toFinset = WorkerHistory.clients history := by
    ext c
    rw [List.mem_toFinset, List.mem_map, hw.clients]
  rw [← hclients, List.toFinset_card_of_nodup hw.distinct, List.length_map]

/-- Within the limits every accepted message finds its port registered. -/
theorem Tracks.register (hw : w.Tracks history)
    (hlimits : WorkerHistory.WithinLimits (.accepted port m :: history))
    (identities : Port → Option Identifier) :
    ∃ ports, WorkerPorts.register ⟨identities, w.connected, w.broker⟩ port m.sender =
        some ⟨identities, KeyedList.put Connected.clientId ⟨m.sender, ports⟩ w.connected,
          w.broker⟩ ∧
      ports.Nodup ∧ ∀ q, q ∈ ports ↔ q ∈ WorkerHistory.portsOf
      (.accepted port m :: history) m.sender := by
  simp only [WorkerPorts.register, WorkerHistory.portsOf_accepted, if_true, Finset.mem_insert]
  cases hlookup : KeyedList.lookup Connected.clientId m.sender w.connected with
  | none =>
    have hunknown : m.sender ∉ WorkerHistory.clients history := fun hc => by
      obtain ⟨connected, hmem, hclient⟩ := (hw.clients m.sender).mp hc
      exact KeyedList.lookup_eq_none.mp hlookup connected hmem hclient
    have hroom : ¬w.connected.length ≥ maxParticipants := by
      have hcard := hlimits.participants
      rw [WorkerHistory.clients_accepted, Finset.card_insert_of_notMem hunknown,
        ← hw.length_connected] at hcard
      omega
    refine ⟨[port], if_neg hroom, List.nodup_singleton port, fun q => ?_⟩
    rw [WorkerHistory.portsOf_eq_empty hunknown]
    simp
  | some connected =>
    obtain ⟨hmem, hclient⟩ := hw.distinct.lookup_iff.mp hlookup
    obtain ⟨hnodup, hports⟩ := hw.ports connected hmem
    have hroom : ¬(port ∉ connected.ports ∧ connected.ports.length ≥ maxPortsPerParticipant) := by
      rintro ⟨hnew, hfull⟩
      have hcard := hlimits.ports m.sender
        (by rw [WorkerHistory.clients_accepted]; exact Finset.mem_insert_self _ _)
      have hset : connected.ports.toFinset = WorkerHistory.portsOf history m.sender := by
        ext q
        rw [List.mem_toFinset, hports, hclient]
      rw [hports, hclient] at hnew
      rw [WorkerHistory.portsOf_accepted, if_pos rfl, Finset.card_insert_of_notMem hnew, ← hset,
        List.toFinset_card_of_nodup hnodup] at hcard
      omega
    refine ⟨KeyedList.put id port connected.ports, if_neg hroom,
      Broker.nodup_put_id hnodup, fun q => ?_⟩
    rw [mem_put_id, hports, hclient]

/-- What an accepted message makes of the participants. -/
theorem Tracks.handleMessage (hw : w.Tracks history)
    (hlimits : WorkerHistory.WithinLimits (.accepted port m :: history))
    (connected : List Identifier) :
    (w.broker.handleMessage connected m.sender m).1.Tidy ∧
      (w.broker.handleMessage connected m.sender m).1.Simple ∧
      ∀ configName c, (w.broker.handleMessage connected m.sender m).1.Has configName c ↔
        configName ∈ namesOf (.accepted port m :: history) c := by
  by_cases hhello : ∃ names, m.body = .hello names
  · obtain ⟨names, hbody⟩ := hhello
    have hothers : ∀ configName c, w.broker.Has configName c → c ≠ m.sender →
        configName ∈ WorkerHistory.configurations (.accepted port m :: history) := by
      intro configName c hhas hne
      refine WorkerHistory.mem_configurations.mpr ⟨c, ?_⟩
      rw [WorkerHistory.namesOf_hello hbody, if_neg (Ne.symm hne)]
      exact (hw.participants configName c).mp hhas
    have hnames : ∀ configName ∈ names.val, configName ∈
        WorkerHistory.configurations (.accepted port m :: history) := by
      intro configName hname
      refine WorkerHistory.mem_configurations.mpr ⟨m.sender, ?_⟩
      rw [WorkerHistory.namesOf_hello hbody, if_pos rfl]
      exact hname
    obtain ⟨htidy, hhas⟩ := Broker.takePart_spec hlimits.configurations hw.tidy hothers hnames
    have hpart : (w.broker.handleMessage connected m.sender m).1 = w.broker.takePart
        m.sender names := by
      rw [Broker.handleMessage, hbody]
    rw [hpart]
    refine ⟨htidy, hw.simple.takePart, fun configName c => ?_⟩
    rw [hhas, WorkerHistory.namesOf_hello hbody]
    by_cases hc : c = m.sender
    · rw [if_pos hc, if_pos hc.symm]
    · rw [if_neg hc, if_neg (Ne.symm hc)]
      exact hw.participants configName c
  · have hother : ∀ names, m.body ≠ .hello names := fun names hbody => hhello ⟨names, hbody⟩
    rw [Broker.handleMessage_fst hother]
    refine ⟨hw.tidy, hw.simple, fun configName c => ?_⟩
    rw [WorkerHistory.namesOf_of_not_hello hother]
    exact hw.participants configName c

variable (workerId) in
theorem Tracks.admitted (hw : w.Tracks history) (haccepts : accepts history port m = true)
    (hlimits : WorkerHistory.WithinLimits (.accepted port m :: history)) :
    Tracks (({ w with identities := Function.update w.identities port (some m.sender) } :
      WorkerPorts Port).admitted workerId port m).1
      (.accepted port m :: history) := by
  obtain ⟨ports, hregister, hnodup, hports⟩ :=
    hw.register hlimits (Function.update w.identities port (some m.sender))
  obtain ⟨htidy, hsimple, hparticipants⟩ := hw.handleMessage hlimits
    ((KeyedList.put Connected.clientId ⟨m.sender, ports⟩ w.connected).map Connected.clientId)
  have hmem : ∀ {connected}, connected ∈
      KeyedList.put Connected.clientId ⟨m.sender, ports⟩ w.connected ↔
      connected = ⟨m.sender, ports⟩ ∨ (connected ∈ w.connected ∧ connected.clientId ≠ m.sender) :=
        hw.distinct.mem_put
  rw [WorkerPorts.admitted, hregister]
  refine ⟨fun q => ?_, hw.distinct.put_self, fun c => ?_, fun connected hconnected => ?_, htidy,
    hsimple, hparticipants,
    hw.consistent.accepted haccepts⟩
  · by_cases hq : q = port
    · rw [hq, WorkerHistory.identityOf_accepted haccepts]
      exact Function.update_self ..
    · rw [WorkerHistory.identityOf_accepted_of_ne (Ne.symm hq), ← hw.identities]
      exact Function.update_of_ne hq ..
  · rw [WorkerHistory.clients_accepted, Finset.mem_insert, hw.clients]
    constructor
    · rintro (rfl | ⟨connected, hold, rfl⟩)
      · exact ⟨_, hmem.mpr (.inl rfl), rfl⟩
      · by_cases hclient : connected.clientId = m.sender
        · exact ⟨_, hmem.mpr (.inl rfl), hclient.symm⟩
        · exact ⟨connected, hmem.mpr (.inr ⟨hold, hclient⟩), rfl⟩
    · rintro ⟨connected, hconnected, rfl⟩
      rcases hmem.mp hconnected with rfl | ⟨hold, _⟩
      · exact .inl rfl
      · exact .inr ⟨connected, hold, rfl⟩
  · rcases hmem.mp hconnected with rfl | ⟨hold, hne⟩
    · exact ⟨hnodup, hports⟩
    · rw [WorkerHistory.portsOf_accepted, if_neg (Ne.symm hne)]
      exact hw.ports connected hold

/-- A message its port may not send changes nothing and is posted nowhere. -/
theorem Tracks.receive_refused (hw : w.Tracks history) (hdecode : decodeMessage h raw = .ok m)
    (hrefused : accepts history port m = false) :
    w.receive workerId port h raw = (w, []) := by
  rw [accepts, ← hw.identities] at hrefused
  rw [WorkerPorts.receive, hdecode]
  dsimp only
  cases hidentity : w.identities port with
  | none =>
    rw [hidentity] at hrefused
    dsimp only at hrefused
    cases hbody : m.body with
    | hello names =>
      have hbroker : m.sender = brokerId := by simpa [hbody, Body.type] using hrefused
      exact if_pos hbroker
    | _ => rfl
  | some identity =>
    rw [hidentity] at hrefused
    exact if_pos (of_decide_eq_false hrefused)

theorem Tracks.receive_accepted (hw : w.Tracks history) (hdecode : decodeMessage h raw = .ok m)
    (haccepts : accepts history port m = true) :
    w.receive workerId port h raw =
      ({ w with
      identities := Function.update w.identities port (some m.sender) } :
        WorkerPorts Port).admitted workerId port m := by
  rw [accepts, ← hw.identities] at haccepts
  rw [WorkerPorts.receive, hdecode]
  dsimp only
  cases hidentity : w.identities port with
  | none =>
    rw [hidentity] at haccepts
    obtain ⟨hhello, hbroker⟩ := of_decide_eq_true haccepts
    cases hbody : m.body with
    | hello names => exact if_neg hbroker
    | _ =>
      rw [hbody, Body.type] at hhello
      cases hhello
  | some identity =>
    rw [hidentity] at haccepts
    have hsender : m.sender = identity := of_decide_eq_true haccepts
    have hupdate : Function.update w.identities port (some m.sender) = w.identities := by
      rw [hsender, ← hidentity, Function.update_eq_self]
    rw [hupdate]
    exact if_neg (not_not_intro hsender)

theorem receive_error {failure : DecodeFailure} (hdecode : decodeMessage h raw = .error failure) :
    (w.receive workerId port h raw).1 = w ∧
      ∀ posted ∈ (w.receive workerId port h raw).2,
        ∃ clientId, posted = (port, welcomeFor clientId workerId) := by
  rw [WorkerPorts.receive, hdecode]
  cases failure with
  | versionMismatch version =>
    dsimp only
    split
    case h_1 sender _ => exact ⟨rfl, fun posted hposted => ⟨sender, List.mem_singleton.mp hposted⟩⟩
    case h_2 => exact ⟨rfl, fun posted hposted => absurd hposted List.not_mem_nil⟩
  | _ => exact ⟨rfl, fun posted hposted => absurd hposted List.not_mem_nil⟩

variable (workerId) in
/-- Whatever arrives, the tables stay those of the history. -/
theorem Tracks.receive (hw : w.Tracks history)
    (hlimits : WorkerHistory.WithinLimits (WorkerHistory.hear history port h raw)) :
    Tracks (w.receive workerId port h raw).1 (WorkerHistory.hear history port h raw) := by
  rw [WorkerHistory.hear] at hlimits ⊢
  cases hdecode : decodeMessage h raw with
  | error failure =>
    rw [(receive_error hdecode).1]
    exact hw
  | ok m =>
    rw [hdecode] at hlimits
    dsimp only at hlimits ⊢
    cases haccepts : accepts history port m with
    | false =>
      rw [hw.receive_refused hdecode haccepts]
      exact hw
    | true =>
      rw [haccepts] at hlimits
      rw [hw.receive_accepted hdecode haccepts]
      exact hw.admitted workerId haccepts hlimits

theorem register_identities {w' : WorkerPorts Port} (hregister : w.register port c = some w') :
    w'.identities = w.identities := by
  rw [WorkerPorts.register] at hregister
  split at hregister
  all_goals
    split at hregister
    · cases hregister
    · rw [← Option.some.inj hregister]

theorem admitted_identities : (w.admitted workerId port m).1.identities = w.identities := by
  rw [WorkerPorts.admitted]
  split
  case h_1 => rfl
  case h_2 w' hregister =>
    have hsame := register_identities hregister
    exact hsame

theorem Tracks.identities_receive (hw : w.Tracks history) {identity : Identifier}
    (hport : w.identities q = some identity) :
    (w.receive workerId port h raw).1.identities q = some identity := by
  cases hdecode : decodeMessage h raw with
  | error failure => rw [(receive_error hdecode).1, hport]
  | ok m =>
    cases haccepts : accepts history port m with
    | false => rw [hw.receive_refused hdecode haccepts, hport]
    | true =>
      rw [hw.receive_accepted hdecode haccepts, admitted_identities]
      by_cases hq : q = port
      · have hsender := WorkerHistory.identityOf_accepted haccepts
        rw [hw.identities, hq] at hport
        rw [WorkerHistory.identityOf_cons _ hport] at hsender
        rw [hq, hsender]
        exact Function.update_self ..
      · exact (Function.update_of_ne hq ..).trans hport

/-- A client whose context has gone. -/
theorem Tracks.forget (hw : w.Tracks history) (clientId : Identifier) :
    Tracks (w.forget clientId) (.forgotten clientId :: history) where
  identities := hw.identities
  distinct := hw.distinct.erase
  clients c := by
    rw [WorkerHistory.clients_forgotten, Finset.mem_erase, hw.clients]
    constructor
    · rintro ⟨hne, connected, hmem, rfl⟩
      exact ⟨connected, KeyedList.mem_erase.mpr ⟨hmem, hne⟩, rfl⟩
    · rintro ⟨connected, hmem, rfl⟩
      obtain ⟨hmem, hne⟩ := KeyedList.mem_erase.mp hmem
      exact ⟨hne, connected, hmem, rfl⟩
  ports connected hconnected := by
    obtain ⟨hmem, hne⟩ := KeyedList.mem_erase.mp hconnected
    rw [WorkerHistory.portsOf_forgotten, if_neg (Ne.symm hne)]
    exact hw.ports connected hmem
  tidy := hw.tidy.leave
  simple := hw.simple.leave
  participants configName c := by
    have hhas : (w.forget clientId).broker.Has configName c ↔
        w.broker.Has configName c ∧ (configName ∈ [] ∨ c ≠ clientId) :=
      Broker.has_leave
    rw [hhas, hw.participants, WorkerHistory.namesOf_forgotten]
    by_cases hc : clientId = c
    · simp [hc]
    · simp [hc, Ne.symm hc]
  consistent := hw.consistent.forgotten

/-! ### what is posted -/

omit [DecidableEq Port] in
theorem mem_deliver_iff {clients : List Identifier} {posted : Port × Message} :
    posted ∈ w.deliver m clients ↔ posted.2 = m ∧ ∃ c ∈ clients, posted.1 ∈ w.portsOf c := by
  obtain ⟨q, m'⟩ := posted
  simp only [deliver, List.mem_flatMap, List.mem_map, Prod.mk.injEq]
  constructor
  · rintro ⟨c, hc, q, hq, rfl, rfl⟩
    exact ⟨rfl, c, hc, hq⟩
  · rintro ⟨rfl, c, hc, hq⟩
    exact ⟨c, hc, q, hq, rfl, rfl⟩

/-- Nothing is posted on a port twice. -/
theorem Tracks.nodup_deliver (hw : w.Tracks history) {clients : List Identifier}
    (hclients : clients.Nodup) :
    (w.deliver m clients).Nodup := by
  rw [deliver, List.nodup_flatMap]
  constructor
  · exact fun c _ => hw.nodup_portsOf.map fun q q' heq => congrArg Prod.fst heq
  · refine hclients.imp fun {c d} hne => ?_
    rw [Function.onFun, List.disjoint_left]
    intro posted hc hd
    obtain ⟨q, hq, rfl⟩ := List.mem_map.mp hc
    obtain ⟨q', hq', heq⟩ := List.mem_map.mp hd
    obtain rfl : q' = q := congrArg Prod.fst heq
    have hidentity := hw.consistent c q' (hw.mem_portsOf.mp hq)
    rw [hw.consistent d q' (hw.mem_portsOf.mp hq')] at hidentity
    exact hne (Option.some.inj hidentity).symm

theorem Broker.handleMessage_configName {b : Broker} {clients : List Identifier}
    {configName : ConfigName}
    (h : m.body.configName? = some configName) :
    b.handleMessage clients c m = (b, b.route m c) := by
  unfold Broker.handleMessage
  split
  case h_5 => rfl
  all_goals
    next hbody =>
      rw [hbody] at h
      cases h

/-- Only what its port may say is passed on. -/
theorem Tracks.routed (hw : w.Tracks history) {posted : Port × Message}
    (hposted : posted ∈ (w.receive workerId port h raw).2) :
    (∃ clientId, posted = (port, welcomeFor clientId workerId)) ∨
      ∃ m, decodeMessage h raw = .ok m ∧ posted.2 = m ∧
        identityOf history port = some m.sender := by
  cases hdecode : decodeMessage h raw with
  | error failure => exact .inl ((receive_error hdecode).2 posted hposted)
  | ok m =>
    cases haccepts : accepts history port m with
    | false =>
      rw [hw.receive_refused hdecode haccepts] at hposted
      cases hposted
    | true =>
      rw [hw.receive_accepted hdecode haccepts, WorkerPorts.admitted] at hposted
      split at hposted
      case h_1 => cases hposted
      case h_2 w' _ =>
        rcases List.mem_append.mp hposted with hwelcome | hdelivered
        · split at hwelcome
          case h_1 => exact .inl ⟨m.sender, List.mem_singleton.mp hwelcome⟩
          case h_2 => cases hwelcome
        · refine .inr ⟨m, rfl, (mem_deliver_iff.mp hdelivered).1, ?_⟩
          rw [accepts] at haccepts
          split at haccepts
          case h_1 =>
            obtain ⟨c, hc, _⟩ := (mem_deliver_iff.mp hdelivered).2
            cases hbody : m.body with
            | hello names => simp [Broker.handleMessage, hbody] at hc
            | _ => simp [hbody, Body.type] at haccepts
          case h_2 identity hsome => rw [hsome, of_decide_eq_true haccepts]

/-- A message for all of a configuration. -/
theorem Tracks.delivered (hw : w.Tracks history) {configName : ConfigName}
    (hdecode : decodeMessage h raw = .ok m)
    (htarget : m.target = toAll) (hname : m.body.configName? = some configName)
    (hidentity : identityOf history port = some m.sender)
    (hlimits : WorkerHistory.WithinLimits (WorkerHistory.hear history port h raw)) :
    (w.receive workerId port h raw).2.Nodup ∧
      (∀ posted, posted ∈ (w.receive workerId port h raw).2 ↔ posted.2 = m ∧
        ∃ clientId, clientId ≠ m.sender ∧ configName ∈ namesOf history clientId ∧
          posted.1 ∈ WorkerHistory.portsOf history clientId) ∧
      ∀ q ∈ WorkerHistory.portsOf history m.sender, (q, m) ∉ (w.receive workerId port h raw).2 := by
  have haccepts : accepts history port m = true := by
    rw [accepts, hidentity]
    exact decide_eq_true rfl
  have hheard : WorkerHistory.hear history port h raw = .accepted port m :: history := by
    rw [WorkerHistory.hear, hdecode]
    exact if_pos haccepts
  have hother : ∀ names, m.body ≠ .hello names := fun names hbody => by
    rw [hbody] at hname
    cases hname
  rw [hheard] at hlimits
  have hw' := hw.admitted workerId haccepts hlimits
  obtain ⟨ports, hregister, hnodup, hports⟩ :=
    hw.register hlimits (Function.update w.identities port (some m.sender))
  have hbroker : (w.broker.route m m.sender) = (w.broker.participantsOf configName).filter (· ≠
      m.sender) := by
    rw [Broker.route, if_neg (not_not_intro htarget), hname]
  have hadmitted : ({ w with identities := Function.update w.identities port (some m.sender) } :
        WorkerPorts Port).admitted workerId port m =
      (⟨Function.update w.identities port (some m.sender),
        KeyedList.put Connected.clientId ⟨m.sender, ports⟩ w.connected, w.broker⟩,
        WorkerPorts.deliver ⟨Function.update w.identities port (some m.sender),
          KeyedList.put Connected.clientId ⟨m.sender, ports⟩ w.connected, w.broker⟩ m
            ((w.broker.participantsOf configName).filter (· ≠ m.sender))) := by
    rw [WorkerPorts.admitted, hregister]
    dsimp only
    rw [Broker.handleMessage_configName hname, hbroker]
    split
    case h_1 names hbody => exact absurd hbody (hother names)
    case h_2 => rfl
  rw [hadmitted] at hw'
  rw [hw.receive_accepted hdecode haccepts, hadmitted]
  have hmem : ∀ posted : Port × Message, posted ∈ WorkerPorts.deliver ⟨Function.update w.identities
      port (some m.sender),
      KeyedList.put Connected.clientId ⟨m.sender, ports⟩ w.connected,
      w.broker⟩ m ((w.broker.participantsOf configName).filter (· ≠ m.sender)) ↔
        posted.2 = m ∧ ∃ clientId, clientId ≠ m.sender ∧ configName ∈ namesOf history clientId ∧
          posted.1 ∈ WorkerHistory.portsOf history clientId := by
    intro posted
    rw [mem_deliver_iff]
    refine and_congr_right fun _ => exists_congr fun c => ?_
    rw [List.mem_filter, decide_eq_true_iff, Broker.mem_participantsOf hw.tidy, hw.participants,
      hw'.mem_portsOf]
    constructor
    · rintro ⟨⟨hc, hne⟩, hq⟩
      rw [WorkerHistory.portsOf_accepted, if_neg (Ne.symm hne)] at hq
      exact ⟨hne, hc, hq⟩
    · rintro ⟨hne, hc, hq⟩
      rw [WorkerHistory.portsOf_accepted, if_neg (Ne.symm hne)]
      exact ⟨⟨hc, hne⟩, hq⟩
  refine ⟨hw'.nodup_deliver ((Broker.nodup_participantsOf hw.simple).filter _), hmem,
    fun q hq hposted => ?_⟩
  obtain ⟨_, c, hne, _, hq'⟩ := (hmem (q, m)).mp hposted
  have hsame := hw.consistent c q hq'
  rw [hw.consistent m.sender q hq] at hsame
  exact hne (Option.some.inj hsame).symm

end WorkerPorts

/-! ### every run -/

namespace WorkerRun

variable {Port : Type} {s s' : WorkerRun Port} {workerId : Identifier}

/-- Every wait is for the ports an identity has now, and begun once. -/
structure Waiting (s : WorkerRun Port) : Prop where
  distinct : KeyedList.Distinct Registration.clientId s.registered
  current : ∀ wait ∈ s.waits, wait ∈ s.registered
  once : s.waits.Nodup
  made : ∀ registration ∈ s.registered, registration.number < s.made

theorem Waiting.forgetWhenGone (hs : s.Waiting) {clientId : Identifier}
    (hfresh : ∀ registration ∈ s.registered, registration.clientId ≠ clientId) :
    (s.forgetWhenGone clientId).Waiting where
  distinct := hs.distinct.concat hfresh
  current wait hwait := by
    rcases List.mem_append.mp hwait with hold | hnew
    · exact List.mem_append_left _ (hs.current wait hold)
    · exact List.mem_append_right _ hnew
  once := by
    rw [WorkerRun.forgetWhenGone, List.nodup_append]
    refine ⟨hs.once, List.nodup_singleton _, fun wait hwait wait' hwait' heq => ?_⟩
    obtain rfl := List.mem_singleton.mp hwait'
    exact hfresh wait (hs.current wait hwait) (congrArg Registration.clientId heq)
  made registration hregistration := by
    rcases List.mem_append.mp hregistration with hold | hnew
    · exact Nat.lt_succ_of_lt (hs.made registration hold)
    · obtain rfl := List.mem_singleton.mp hnew
      exact Nat.lt_succ_self s.made

theorem foldl_forgetWhenGone (connects : List Identifier) (s : WorkerRun Port) :
    (connects.foldl WorkerRun.forgetWhenGone s).tables = s.tables ∧
      (connects.foldl WorkerRun.forgetWhenGone s).history = s.history := by
  induction connects generalizing s with
  | nil => exact ⟨rfl, rfl⟩
  | cons clientId connects ih => exact ih (s.forgetWhenGone clientId)

/-- The waits of the identities a message connects. -/
theorem Waiting.connect {connects : List Identifier} (hs : s.Waiting) (hnodup : connects.Nodup)
    (hfresh : ∀ clientId ∈ connects, ∀ registration ∈ s.registered, registration.clientId ≠
      clientId) :
    (connects.foldl WorkerRun.forgetWhenGone s).Waiting ∧
      ∀ c, (∃ registration ∈ (connects.foldl WorkerRun.forgetWhenGone s).registered,
        registration.clientId = c) ↔
        (∃ registration ∈ s.registered, registration.clientId = c) ∨ c ∈ connects := by
  induction connects generalizing s with
  | nil => exact ⟨hs, fun c => by simp⟩
  | cons clientId connects ih =>
    obtain ⟨hnotin, hnodup⟩ := List.nodup_cons.mp hnodup
    have hconnected := hs.forgetWhenGone (hfresh clientId List.mem_cons_self)
    have hfresh' : ∀ clientId' ∈ connects, ∀ registration ∈ (s.forgetWhenGone clientId).registered,
        registration.clientId ≠ clientId' := by
      intro clientId' hmem registration hregistration
      rcases List.mem_append.mp hregistration with hold | hnew
      · exact hfresh clientId' (List.mem_cons_of_mem _ hmem) registration hold
      · obtain rfl := List.mem_singleton.mp hnew
        exact fun (heq : clientId = clientId') => hnotin (heq ▸ hmem)
    obtain ⟨hwaiting, hregistered⟩ := ih hconnected hnodup hfresh'
    refine ⟨hwaiting, fun c => ?_⟩
    have hone : (∃ registration ∈ (s.forgetWhenGone clientId).registered,
        registration.clientId = c) ↔
        (∃ registration ∈ s.registered, registration.clientId = c) ∨ c = clientId := by
      simp [WorkerRun.forgetWhenGone, or_and_right, exists_or, eq_comm]
    rw [List.foldl_cons, hregistered, hone, List.mem_cons, or_assoc]

variable [DecidableEq Port]

/-- What holds in every state a run reaches within the limits. -/
structure Sound (s : WorkerRun Port) : Prop where
  tracks : s.tables.Tracks s.history
  waiting : s.Waiting
  registered : ∀ c, (∃ registration ∈ s.registered, registration.clientId = c) ↔
    c ∈ WorkerHistory.clients s.history

theorem Sound.fresh : (fresh : WorkerRun Port).Sound where
  tracks := .fresh
  waiting := ⟨List.nodup_nil, List.forall_mem_nil _, List.nodup_nil, List.forall_mem_nil _⟩
  registered c := by simp [WorkerRun.fresh, WorkerHistory.clients]

theorem clients_hear {history : WorkerHistory Port} {port : Port} {h : JsHeap} {raw : JsValue} :
    WorkerHistory.clients history ⊆ WorkerHistory.clients
    (WorkerHistory.hear history port h raw) := by
  rw [WorkerHistory.hear]
  split
  case h_1 => exact Finset.Subset.refl _
  case h_2 =>
    split
    · exact Finset.subset_insert _ _
    · exact Finset.Subset.refl _

theorem Sound.receive (hs : s.Sound) {port : Port} {h : JsHeap} {raw : JsValue}
    (hlimits : WorkerHistory.WithinLimits (WorkerHistory.hear s.history port h raw)) :
    (s.receive workerId port h raw).Sound := by
  have htracks := hs.tracks.receive workerId hlimits
  have hconnects : ∀ c, c ∈
    (((s.tables.receive workerId port h raw).1.connected.map Connected.clientId).filter
      (· ∉ s.tables.connected.map Connected.clientId)) ↔
      c ∈ WorkerHistory.clients (WorkerHistory.hear s.history port h raw) ∧
        c ∉ WorkerHistory.clients s.history := by
    intro c
    rw [List.mem_filter, decide_eq_true_iff, List.mem_map, List.mem_map, htracks.clients,
      hs.tracks.clients]
  obtain ⟨htables, hhistory⟩ := foldl_forgetWhenGone _ { s with
      tables := (s.tables.receive workerId port h raw).1, history :=
        WorkerHistory.hear s.history port h raw }
  obtain ⟨hwaiting, hregistered⟩ := Waiting.connect (s := { s with
      tables := (s.tables.receive workerId port h raw).1, history :=
        WorkerHistory.hear s.history port h raw })
    ⟨hs.waiting.distinct, hs.waiting.current, hs.waiting.once, hs.waiting.made⟩
      (htracks.distinct.filter _)
    fun clientId hmem registration hregistration heq =>
      ((hconnects clientId).mp hmem).2
        ((hs.registered clientId).mp ⟨registration, hregistration, heq⟩)
  rw [WorkerRun.receive]
  refine ⟨by rw [htables, hhistory]; exact htracks, hwaiting, fun c => ?_⟩
  rw [hregistered, hhistory, hs.registered, hconnects]
  constructor
  · rintro (hold | ⟨hnew, _⟩)
    · exact clients_hear hold
    · exact hnew
  · intro hnew
    by_cases hold : c ∈ WorkerHistory.clients s.history
    · exact .inl hold
    · exact .inr ⟨hnew, hold⟩

/-- A grant always forgets the identity it was waited for. -/
theorem Sound.granted_eq (hs : s.Sound) {wait : Registration} (hwait : wait ∈ s.waits) :
    ({ s with waits := s.waits.erase wait } : WorkerRun Port).granted wait =
      { s with
        waits := s.waits.erase wait
        tables := s.tables.forget wait.clientId
        registered := KeyedList.erase Registration.clientId wait.clientId s.registered
        history := .forgotten wait.clientId :: s.history } :=
  if_pos (hs.waiting.distinct.lookup_iff.mpr ⟨hs.waiting.current wait hwait, rfl⟩)

omit [DecidableEq Port] in
theorem Waiting.erase (hs : s.Waiting) (wait : Registration) :
    ({ s with waits := s.waits.erase wait } : WorkerRun Port).Waiting where
  distinct := hs.distinct
  current wait' hmem := hs.current wait' (List.mem_of_mem_erase hmem)
  once := hs.once.erase wait
  made := hs.made

theorem Sound.granted (hs : s.Sound) {wait : Registration} (hwait : wait ∈ s.waits) :
    (({ s with waits := s.waits.erase wait } : WorkerRun Port).granted wait).Sound := by
  rw [hs.granted_eq hwait]
  refine ⟨hs.tracks.forget wait.clientId, ⟨hs.waiting.distinct.erase,
    fun wait' hmem => ?_, hs.waiting.once.erase wait,
    fun registration hmem => hs.waiting.made registration (KeyedList.mem_erase.mp hmem).1⟩,
    fun c => ?_⟩
  · obtain ⟨hne, hmem⟩ := (hs.waiting.once.mem_erase_iff).mp hmem
    have hcurrent := hs.waiting.current wait' hmem
    exact KeyedList.mem_erase.mpr
      ⟨hcurrent, fun heq =>
        hne (hs.waiting.distinct.eq_of_mem hcurrent (hs.waiting.current wait hwait) heq)⟩
  · rw [WorkerHistory.clients_forgotten, Finset.mem_erase, ← hs.registered]
    constructor
    · rintro ⟨registration, hmem, rfl⟩
      obtain ⟨hmem, hne⟩ := KeyedList.mem_erase.mp hmem
      exact ⟨hne, registration, hmem, rfl⟩
    · rintro ⟨hne, registration, hmem, rfl⟩
      exact ⟨registration, KeyedList.mem_erase.mpr ⟨hmem, hne⟩, rfl⟩

theorem Sound.step {event : WorkerEvent Port} (hs : s.Sound) (hlimits : s.StaysWithinLimits event)
    (hstep : s.step workerId event = some s') : s'.Sound := by
  cases event with
  | receive port h raw =>
    obtain rfl := Option.some.inj hstep
    exact hs.receive hlimits
  | granted wait =>
    obtain ⟨hwait, hstep⟩ := Option.ite_none_right_eq_some.mp hstep
    obtain rfl := Option.some.inj hstep
    exact hs.granted hwait
  | refused wait =>
    obtain ⟨_, hstep⟩ := Option.ite_none_right_eq_some.mp hstep
    obtain rfl := Option.some.inj hstep
    exact ⟨hs.tracks, hs.waiting.erase wait, hs.registered⟩

/-- A port keeps its identity, within the limits or not. -/
theorem Sound.identities_step {event : WorkerEvent Port} {port : Port} {identity : Identifier}
    (hs : s.Sound)
    (hstep : s.step workerId event = some s') (hport : s.tables.identities port = some identity) :
    s'.tables.identities port = some identity := by
  cases event with
  | receive port' h raw =>
    obtain rfl := Option.some.inj hstep
    rw [WorkerRun.receive, (foldl_forgetWhenGone _ _).1]
    exact hs.tracks.identities_receive hport
  | granted wait =>
    obtain ⟨hwait, hstep⟩ := Option.ite_none_right_eq_some.mp hstep
    obtain rfl := Option.some.inj hstep
    rw [hs.granted_eq hwait]
    exact hport
  | refused wait =>
    obtain ⟨_, hstep⟩ := Option.ite_none_right_eq_some.mp hstep
    obtain rfl := Option.some.inj hstep
    exact hport

/-- **Within its limits the worker's tables follow the hellos.** -/
theorem tables_follow_hellos {events : List (WorkerEvent Port)} {s : WorkerRun Port}
    (hlimits : (workerRuns Port workerId).Always StaysWithinLimits events)
    (hrun : (workerRuns Port workerId).run events = some s) :
    s.FollowsHellos workerId := by
  have hs : s.Sound :=
    TransitionSystem.run_invariant Sound.fresh (fun s event s' hs hlimits hstep =>
      hs.step hlimits hstep) hlimits hrun
  constructor
  · intro configName clientId
    rw [Broker.mem_participantsOf hs.tracks.tidy]
    exact hs.tracks.participants configName clientId
  · exact hs.tracks.tidy.inhabited
  · exact hs.tracks.identities
  · exact fun event s' port identity hstep hport => hs.identities_step hstep hport
  · exact fun port h raw posted hposted => hs.tracks.routed hposted
  · exact fun port h raw m configName hdecode htarget hname hidentity hlimits =>
      hs.tracks.delivered hdecode htarget hname hidentity hlimits

instance (s : WorkerRun Port) (event : WorkerEvent Port) : Decidable (s.StaysWithinLimits event) :=
  match event with
  | .receive port h raw =>
    let history := WorkerHistory.hear s.history port h raw
    decidable_of_iff ((WorkerHistory.clients history).card ≤ maxParticipants ∧
        (∀ clientId ∈ WorkerHistory.clients history, (WorkerHistory.portsOf history clientId).card ≤
          maxPortsPerParticipant) ∧
        (WorkerHistory.configurations history).card ≤ maxConfigurations)
      ⟨fun h => ⟨h.1, h.2.1, h.2.2⟩, fun h => ⟨h.participants, h.ports, h.configurations⟩⟩
  | .granted _ | .refused _ => .isTrue trivial

def scaleName : ConfigName := ⟨js "scale", by decide, by decide⟩

/-- The hello of a tab attached to one configuration. -/
def scaleHello (port : ℕ) (clientId : Identifier) : WorkerEvent ℕ :=
  let hello : Message := ⟨clientId, toAll, .hello ⟨[scaleName], by decide⟩⟩
  .receive port (hello.post []).1 (hello.post []).2

/-- Two tabs say hello, one of them on two ports, and the other goes. -/
theorem tables_follow_hellos_twoTabs :
    ∃ s, (workerRuns ℕ brokerId).run
    [scaleHello 0 firstTab, scaleHello 1 secondTab, scaleHello 2 secondTab,
    .granted ⟨firstTab, 0⟩] = some s ∧
      s.tables.broker.participantsOf scaleName = [secondTab] ∧ s.FollowsHellos brokerId := by
  obtain ⟨s, hrun, hfacts⟩ := (Option.any_eq_true _ _).mp
    (show ((workerRuns ℕ brokerId).run
        [scaleHello 0 firstTab, scaleHello 1 secondTab, scaleHello 2 secondTab,
          .granted ⟨firstTab, 0⟩]).any
      (fun s => decide (s.tables.broker.participantsOf scaleName = [secondTab]))
        = true by decide +kernel)
  have hlimits : (workerRuns ℕ brokerId).Always StaysWithinLimits
      [scaleHello 0 firstTab, scaleHello 1 secondTab, scaleHello 2 secondTab,
        .granted ⟨firstTab, 0⟩] :=
    TransitionSystem.AlwaysFrom.mono (fun s event h => of_decide_eq_true h)
      (TransitionSystem.always_of_alwaysFrom (fun s event => decide (StaysWithinLimits s event))
        (by decide +kernel))
  exact ⟨s, hrun, of_decide_eq_true hfacts, tables_follow_hellos hlimits hrun⟩

end WorkerRun

end SerialBroker.Wire
