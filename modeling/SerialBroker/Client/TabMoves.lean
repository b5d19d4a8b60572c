import SerialBroker.Client.WritesKept
import SerialBroker.Client.OwnerTermsHandled
import SerialBroker.Owner.PortJobs

/-!
# What a tab can do, one thing at a time

A turn of a tab is a sequence of moves. A move does one thing: it issues, addresses, approves or
settles one write, takes one write a step further at the port, joins or leaves the election, or does
what concerns neither the writes nor the election. Each says what it was allowed by, so that what
holds in every run of all the tabs needs to look at the moves only.
-/

namespace SerialBroker

/-- A message about a write: a request, a question or an answer to one, or a result. -/
def MessageBody.isOfWrite : MessageBody → Bool
  | .writeRequest .. | .writeReady .. | .writeApproval .. | .writeResult .. => true
  | _ => false

/-- The term whose holder speaks in the message. -/
def MessageBody.spokenTerm? : MessageBody → Option TermId
  | .ownerClaimed term _ | .ownerReleased term | .status _ _ term | .writeReady _ term _ =>
    some term
  | .writeResult _ _ _ term => term
  | _ => none

/-- The term whose holder does this: speaks in it, or hands bytes to the port. -/
def Action.servedTerm? : Action → Option TermId
  | .send message => message.body.spokenTerm?
  | .began _ term | .chunkTaken _ term _ _ => some term
  | _ => none

/-- A message about neither a write nor the beginning or end of a term. -/
def MessageBody.isPlain : MessageBody → Bool
  | .status .. | .statusRequest _ | .dataReceived .. | .dataSent .. | .error _ => true
  | _ => false

theorem Announcement.isPlain_body (announcement : Announcement) :
    announcement.body.isPlain = true ∧ announcement.body.spokenTerm? = none := by
  cases announcement <;> exact ⟨rfl, rfl⟩

/-- What concerns neither the writes nor the locks of the election. -/
def Action.isPlain : Action → Bool
  | .send message => message.body.isPlain
  | .check .. | .watch .. | .abortWatch _ => true
  | _ => false

/-- A rejection that says that no byte of the write was handed to a port, or will be. -/
def WriteOutcome.isUnbegun (outcome : WriteOutcome) : Bool :=
  match outcome with
  | some error =>
    error.code = .NOT_CONNECTED ∨ error.code = .WRITE_QUEUE_FULL ∨ error.code = .WRITE_TIMEOUT ∧
      error.started = some false
  | none => false

/-- The message about a write an effect applies. -/
def TermEffect.ofWrite? : TermEffect → Option ProtocolMessage
  | .apply message => if message.body.isOfWrite then some message else none
  | _ => none

def TurnFrame.applying : TurnFrame → List ProtocolMessage
  | .effects l => l.filterMap TermEffect.ofWrite?
  | _ => []

/-- What is asked of a run: which approvals a port takes, and which outcomes it may forget. -/
structure Discipline where
  takes : Option Holder → ProtocolMessage → Prop
  forgets : WriteKey → Prop

/-- Nothing is asked. -/
def Discipline.lax : Discipline := ⟨fun _ _ => True, fun _ => True⟩

/-- Whether a port that answers a job forgets no other outcome than it may. -/
def Discipline.Allows (discipline : Discipline) (h : Holder) (ended : EndedJob) : Prop :=
  ∀ key, (KeyedList.lookup FinishedWrite.key key h.accepted.finished).isSome = true →
    KeyedList.lookup FinishedWrite.key key (h.accepted.finish ended.job.key ended.outcome).finished
      = none → discipline.forgets key

namespace Tab

variable {t t' t'' t₀ : Tab} {config : TabConfig} {discipline : Discipline} {requestId : RequestId}
  {term : TermId} {h h' : Holder} {key : WriteKey}
  {outcome : WriteOutcome} {action : Action} {payload : Payload} {message : ProtocolMessage}
  {job : Job} {frame : TurnFrame}
  {stack : List TurnFrame} {effect : TermEffect} {effects : List TermEffect}

/-- The messages about writes that the rest of the turn applies. -/
def applying (t : Tab) : List ProtocolMessage := t.stack.flatMap TurnFrame.applying

/-- What the parts of a session say about each other. -/
structure Composed (t : Tab) : Prop where
  terms : t.terms.WellFormed t.nextKey
  withdrawing : .withdraw ∈ t.stack → t.isWithdrawn = true
  withdraws : t.isWithdrawn = true → .withdraw ∈ t.stack ∨ t.election.isStopped = true
  owner : t.election.isOwner = true → t.isWithdrawn = false
  acquired : ∀ term, t.election.phase = .owner term → t.election.isOwner = true
  serving : ∀ h, t.holder = some h → h.stage ≠ .stopped →
    t.election.phase = .owner h.term ∧ t.election.isStopped = false
  port : ∀ h, t.holder = some h → t.election.phase = .owner h.term ∨ h.stage = .stopped ∧
    t.election.isStopped = true

/-- The next thing the turn does is to apply the message, and `t₀` is the tab without that. -/
def Hears (t : Tab) (message : ProtocolMessage) (t₀ : Tab) : Prop :=
  ∃ effects stack, t.stack = .effects (.apply message :: effects) :: stack ∧ t₀ =
    { t with stack := .effects effects :: stack }

/-- What the application of a result does to a write that was not begun after all. -/
def handBack (w : PendingWrite) : PendingWrite :=
  { w with startedTerm := none, isDispatched := false }

/-- What concerns neither the writes nor the election nor the port; `heard` may be applied by the
rest of the turn. -/
structure Rest (config : TabConfig) (heard : List ProtocolMessage) (t t' : Tab)
    (deeds : List Action) : Prop where
  writes : t'.writes = t.writes
  issued : t'.issued = t.issued
  holder : t'.holder = t.holder
  election : t'.election = t.election
  composed : t.Composed → t'.Composed
  applying : t'.applying.Sublist (heard ++ t.applying)
  outbox : t'.outbox = t.outbox ++ deeds
  plain : ∀ deed ∈ deeds, deed.isPlain = true ∧
    ∀ message, deed = .send message → message.sender = config.clientId ∧ message.target = .all ∧
      ∀ term, message.body.spokenTerm? = some term → ∃ h, t.serving? = some h ∧ h.term = term

/-- One thing a tab does, and what allowed it to. -/
inductive Move (config : TabConfig) (discipline : Discipline) (t : Tab) : Tab → Prop
  | rest (t' : Tab) (deeds : List Action) (hrest : Rest config [] t t' deeds) :
      Move config discipline t t'
  | requests (hphase : t.election.phase = .off ∨ t.election.phase = .paused)
      (hrunning : t.election.isStopped = false) :
      Move config discipline t t.startElection
  | stops (hstopped : t.hasStoppedHolding = true) : Move config discipline t t.stopElection
  | withdraws (stack : List TurnFrame) (hstack : t.stack = .withdraw :: stack) :
      Move config discipline t ({ t with stack, terms := t.terms.dispose.1 } : Tab).stopElection
  -- the writes this tab has issued
  | issues (payload : Payload) :
      Move config discipline t { t with
        writes := t.writes ++ [PendingWrite.mk t.issued.length payload none none false]
        issued := t.issued ++ [payload] }
  | settles (w : PendingWrite) (hw : w ∈ t.writes) (outcome : WriteOutcome)
    (hrejected : outcome ≠ none)
      (hstarted : outcome.isUnbegun = true → w.startedTerm = none) :
        Move config discipline t (t.settle w.requestId outcome)
  | marks (requestId : RequestId) (f : PendingWrite → PendingWrite)
      (hsame : ∀ w, (f w).requestId = w.requestId ∧ (f w).payload = w.payload ∧
        (f w).startedTerm = w.startedTerm)
      (haddress : ∀ w, t.pending? requestId = some w → (f w).addressedTerm = w.addressedTerm ∨
        w.startedTerm = none) :
      Move config discipline t (t.modifyWrite requestId f)
  | asks (w : PendingWrite) (hw : w ∈ t.writes) (term : TermId) :
      Move config discipline t (t.send config .all (.writeRequest w.requestId w.payload term))
  -- a write of this tab's own at its own port
  | admits (w : PendingWrite) (hw : w ∈ t.writes) (h : Holder) (hserving : t.serving? = some h)
    (accepted : AcceptedWrites)
      (hnew : h.accepted.admitWrite ⟨config.clientId, w.requestId⟩ = (accepted, .new)) :
      Move config discipline t (t.setHolder
        (({ h with accepted } : Holder).enqueue ⟨config.clientId, w.requestId⟩ w.payload))
  | recalls (w : PendingWrite) (hw : w ∈ t.writes) (hstarted : w.startedTerm = none) (h : Holder)
    (hserving : t.serving? = some h)
      (outcome : WriteOutcome) (hfinished : KeyedList.lookup FinishedWrite.key ⟨config.clientId,
        w.requestId⟩ h.accepted.finished =
        some ⟨⟨config.clientId, w.requestId⟩, outcome⟩) :
          Move config discipline t (t.settle w.requestId outcome)
  -- what it hears about a write
  | hearsRequest (message : ProtocolMessage) (t₀ : Tab) (hears : t.Hears message t₀)
    (requestId : RequestId) (payload : Payload)
      (h : Holder) (hbody : message.body = .writeRequest requestId payload h.term)
        (hserving : t.serving? = some h)
      (accepted : AcceptedWrites)
        (hnew : h.accepted.admitWrite ⟨message.sender, requestId⟩ = (accepted, .new)) :
      Move config discipline t
        (t₀.setHolder (({ h with accepted } : Holder).enqueue ⟨message.sender, requestId⟩ payload))
  | hearsAgain (message : ProtocolMessage) (t₀ : Tab) (hears : t.Hears message t₀)
    (requestId : RequestId) (payload : Payload)
      (h : Holder) (hbody : message.body = .writeRequest requestId payload h.term)
        (hserving : t.serving? = some h) (outcome : WriteOutcome)
      (hwhy : h.accepted.isKnown ⟨message.sender, requestId⟩ = false ∧
        outcome = some (.plain .WRITE_QUEUE_FULL) ∨
        ⟨message.sender, requestId⟩ ∉ h.accepted.inProgress ∧
          KeyedList.lookup FinishedWrite.key ⟨message.sender,
            requestId⟩ h.accepted.finished = some ⟨⟨message.sender, requestId⟩, outcome⟩) :
      Move config discipline t (t₀.finishedForPeer config h ⟨message.sender, requestId⟩ outcome)
  | hearsReady (message : ProtocolMessage) (t₀ : Tab) (hears : t.Hears message t₀)
    (requestId : RequestId) (term : TermId)
      (question : QuestionId) (hbody : message.body = .writeReady requestId term question) :
      Move config discipline t ((t₀.approve requestId term).1.send config (.client message.sender)
        (.writeApproval requestId term (t₀.approve requestId term).2 question))
  | hearsApproval (message : ProtocolMessage) (t₀ : Tab) (hears : t.Hears message t₀)
    (requestId : RequestId) (term : TermId)
      (approved : Bool) (question : QuestionId)
        (hbody : message.body = .writeApproval requestId term approved question)
      (htakes : discipline.takes t.holder message) :
      Move config discipline t (t₀.takeApproval ⟨message.sender, requestId⟩ term approved)
  | hearsUnconnected (message : ProtocolMessage) (t₀ : Tab) (hears : t.Hears message t₀)
    (w : PendingWrite) (hw : w ∈ t.writes)
      (term : TermId) (hterm : w.addressedTerm = some term) (ok : Bool)
        (error : Option SerialBrokerError)
      (hbody : message.body = .writeResult w.requestId ok error (some term))
        (outcome : WriteOutcome)
      (hresult : outcome = if ok then none else error) (houtcome : outcome.isNotConnected = true) :
      Move config discipline t (t₀.modifyWrite w.requestId handBack)
  | hearsResult (message : ProtocolMessage) (t₀ : Tab) (hears : t.Hears message t₀)
    (w : PendingWrite) (hw : w ∈ t.writes)
      (term : TermId) (hterm : w.addressedTerm = some term) (ok : Bool)
        (error : Option SerialBrokerError)
      (hbody : message.body = .writeResult w.requestId ok error (some term))
        (outcome : WriteOutcome)
      (hresult : outcome = if ok then none else error) :
        Move config discipline t (t₀.settle w.requestId outcome)
  -- what happens at its port
  | connects (h : Holder) (hholder : t.holder = some h) (connection : Option ConnectionId)
    (nextConnection : ConnectionId)
      (hconnection : h.stage = .serving ∨ connection = none) :
        Move config discipline t (t.setHolder { h with connection, nextConnection })
  | endsFirst (h : Holder) (hholder : t.holder = some h) (job : Job) (rest : List Job)
    (hwaiting : h.waiting = job :: rest)
      (hrunning : h.running = none) (outcome : WriteOutcome) (hunbegun : outcome.isUnbegun = true) :
      Move config discipline t
        (t.setHolder (({ h with waiting := rest } : Holder).endJob job outcome))
  | beginsOwn (h : Holder) (hholder : t.holder = some h) (job : Job) (rest : List Job)
    (hwaiting : h.waiting = job :: rest)
      (hrunning : h.running = none) (horigin : job.key.origin = config.clientId)
        (connection : ConnectionId)
      (hconnection : h.connection = some connection) (w : PendingWrite) (hw : w ∈ t.writes)
        (hid : w.requestId = job.key.requestId)
      (hterm : w.addressedTerm = some h.term) :
      Move config discipline t ((t.modifyWrite w.requestId fun w =>
          { w with startedTerm := w.startedTerm.or (some h.term) }).beginWrite
        { h with waiting := rest } job connection)
  | asksToBegin (h : Holder) (hholder : t.holder = some h) (job : Job) (rest : List Job)
    (hwaiting : h.waiting = job :: rest)
      (hrunning : h.running = none) (horigin : job.key.origin ≠ config.clientId)
        (connection : ConnectionId)
      (hconnection : h.connection = some connection) :
      Move config discipline t ((t.setHolder { h with
          waiting := rest
          running := some ⟨job, .asking h.nextQuestion⟩
          awaited := KeyedList.put AwaitedApproval.key ⟨job.key, h.nextQuestion⟩ h.awaited
          nextQuestion := h.nextQuestion + 1 }).send config (.client job.key.origin)
        (.writeReady job.key.requestId h.term h.nextQuestion))
  | expiresAsked (h : Holder) (hholder : t.holder = some h) (job : Job) (question : QuestionId)
      (hrunning : h.running = some ⟨job, .asking question⟩) :
      Move config discipline t (t.setHolder { h with running := some ⟨job, .answered false⟩ })
  | begins (h : Holder) (hholder : t.holder = some h) (job : Job)
    (hrunning : h.running = some ⟨job, .answered true⟩)
      (connection : ConnectionId) (hconnection : h.connection = some connection) :
        Move config discipline t (t.beginWrite h job connection)
  | turnsBack (h : Holder) (hholder : t.holder = some h) (job : Job) (isApproved : Bool)
      (hrunning : h.running = some ⟨job, .answered isApproved⟩) (outcome : WriteOutcome)
        (hunbegun : outcome.isUnbegun = true) :
      Move config discipline t (t.setHolder (h.endJob job outcome))
  | takesChunk (h : Holder) (hholder : t.holder = some h) (job : Job) (connection : ConnectionId)
    (offset : Nat)
      (hrunning : h.running = some ⟨job, .writing connection offset⟩) :
      Move config discipline t
          ((t.act (.chunkTaken job.key h.term offset
          (min config.maxWriteChunkBytes (job.payload.length - offset)))).setHolder
        (h.chunkTaken job connection offset
          (min config.maxWriteChunkBytes (job.payload.length - offset))))
  | failsChunk (h : Holder) (hholder : t.holder = some h) (job : Job) (connection : ConnectionId)
    (offset : Nat)
      (hrunning : h.running = some ⟨job, .writing connection offset⟩) (outcome : WriteOutcome)
        (hbegun : outcome.isUnbegun = false)
      (hfailed : outcome ≠ none) (running' : Option RunningJob)
        (hrunning' : ∀ r, running' = some r → ∃ c, r = ⟨job, .stalled c⟩)
      (c : Option ConnectionId) (hconnection : c = h.connection ∨ c = none) :
      Move config discipline t (t.setHolder
        { h with running := running', ended := h.ended ++ [⟨job, outcome⟩], connection := c })
  | endsStall (h : Holder) (hholder : t.holder = some h) (job : Job) (connection : ConnectionId)
      (hrunning : h.running = some ⟨job, .stalled connection⟩) (c : Option ConnectionId)
        (hconnection : c = h.connection ∨ c = none) :
      Move config discipline t (t.setHolder { h with running := none, connection := c })
  | expiresQueued (h : Holder) (hholder : t.holder = some h) (job : Job) (hjob : job ∈ h.waiting) :
      Move config discipline t (t.setHolder { h with
        waiting := KeyedList.erase Job.id job.id h.waiting
        ended := h.ended ++ [⟨job, Holder.notBegun⟩] })
  | answersPeer (h : Holder) (hholder : t.holder = some h) (ended : EndedJob)
    (hended : ended ∈ h.ended) (hforgets : discipline.Allows h ended)
      (horigin : ended.job.key.origin ≠ config.clientId) :
      Move config discipline t (t.finishedForPeer config { h with
        ended := h.ended.filter fun e => e.job.id ≠ ended.job.id
        accepted := h.accepted.finish ended.job.key ended.outcome } ended.job.key ended.outcome)
  | answersOwn (h : Holder) (hholder : t.holder = some h) (ended : EndedJob)
    (hended : ended ∈ h.ended) (hforgets : discipline.Allows h ended)
      (horigin : ended.job.key.origin = config.clientId) (t' : Tab)
      (ht' : t' = t.setHolder { h with
        ended := h.ended.filter fun e => e.job.id ≠ ended.job.id
        accepted := h.accepted.finish ended.job.key ended.outcome })
      (hother : ∀ w, t.pending? ended.job.key.requestId = some w → w.addressedTerm ≠ some h.term) :
        Move config discipline t t'
  | handsBackOwn (h : Holder) (hholder : t.holder = some h) (ended : EndedJob)
    (hended : ended ∈ h.ended) (hforgets : discipline.Allows h ended)
      (horigin : ended.job.key.origin = config.clientId) (w : PendingWrite) (hw : w ∈ t.writes)
      (hid : w.requestId = ended.job.key.requestId) (hterm : w.addressedTerm = some h.term)
        (houtcome : ended.outcome.isNotConnected = true) :
      Move config discipline t ((t.setHolder { h with
        ended := h.ended.filter fun e => e.job.id ≠ ended.job.id
        accepted := h.accepted.finish ended.job.key ended.outcome }).modifyWrite
          w.requestId handBack)
  | settlesOwn (h : Holder) (hholder : t.holder = some h) (ended : EndedJob)
    (hended : ended ∈ h.ended) (hforgets : discipline.Allows h ended)
      (horigin : ended.job.key.origin = config.clientId) (w : PendingWrite) (hw : w ∈ t.writes)
      (hid : w.requestId = ended.job.key.requestId) (hterm : w.addressedTerm = some h.term) :
      Move config discipline t ((t.setHolder { h with
        ended := h.ended.filter fun e => e.job.id ≠ ended.job.id
        accepted := h.accepted.finish ended.job.key ended.outcome }).settle w.requestId
          ended.outcome)
  | givesUp (h : Holder) (hserving : t.serving? = some h) :
    Move config discipline t (t.setHolder h.stop)
  | tearsDown (h : Holder) (hholder : t.holder = some h) (hstopping : h.stage = .stopping) :
      Move config discipline t (t.setHolder
        { h with stage := .answering h.nextDeadline, nextDeadline := h.nextDeadline + 1 })
  | saysGoodbye (h : Holder) (hholder : t.holder = some h) (deadline : DeadlineId)
    (hstage : h.stage = .answering deadline)
      (hanswered : h.unanswered = [] ∨ h.hasRunOut deadline = true) :
      Move config discipline t
          (((t.setHolder { h with stage := .stopped }).act (.requestGoodbye h.term)).send config
          .all
        (.ownerReleased h.term)).stopElection

abbrev MakesMoves (config : TabConfig) (discipline : Discipline) : Tab → Tab → Prop :=
  Relation.ReflTransGen (Move config discipline)

theorem Move.makesMoves (h : Move config discipline t t') : MakesMoves config discipline t t' :=
  Relation.ReflTransGen.single h

/-! ### what concerns neither the writes nor the election -/

theorem mem_of_pending {w : PendingWrite} (h : t.pending? requestId = some w) :
    w ∈ t.writes ∧ w.requestId = requestId :=
  ⟨KeyedList.mem_of_lookup h, KeyedList.key_of_lookup h⟩

theorem applying_cons :
    ({ t with stack := frame :: stack } : Tab).applying = frame.applying ++
      ({ t with stack } : Tab).applying := by
  simp [applying]

theorem Composed.withStack (h : t.Composed) (hwithdraw : .withdraw ∈ stack ↔ .withdraw ∈ t.stack) :
    ({ t with stack } : Tab).Composed :=
  { h with
    withdrawing := fun hin => h.withdrawing (hwithdraw.mp hin)
    withdraws := fun hw => (h.withdraws hw).imp_left hwithdraw.mpr }

/-- A callback is put before the rest of the turn. -/
theorem push_rest (happlying : frame.applying = []) (hframe : frame ≠ .withdraw) :
    Rest config [] t (t.push frame) [] where
  writes := rfl
  issued := rfl
  holder := rfl
  election := rfl
  composed h := h.withStack (by simp [hframe.symm])
  applying := by
    have hcons : (t.push frame).applying = frame.applying ++ t.applying := applying_cons
    rw [hcons, happlying]
  outbox := (List.append_nil _).symm
  plain _ h := absurd h List.not_mem_nil

/-- The turn goes on without its next frame. -/
theorem pop_rest (hstack : t.stack = frame :: stack) (hframe : frame ≠ .withdraw) : Rest config [] t
    { t with stack } [] where
  writes := rfl
  issued := rfl
  holder := rfl
  election := rfl
  composed h := h.withStack (by rw [hstack]; simp [hframe.symm])
  applying := by
    have hcons : t.applying = frame.applying ++ ({ t with stack } : Tab).applying := by
      rw [applying, hstack]
      simp [applying]
    rw [hcons, List.nil_append]
    exact List.sublist_append_right _ _
  outbox := (List.append_nil _).symm
  plain _ h := absurd h List.not_mem_nil

theorem Rest.trans {deeds deeds' : List Action} (h : Rest config [] t t' deeds)
    (h' : Rest config [] t' t'' deeds') :
    Rest config [] t t'' (deeds ++ deeds') where
  writes := h'.writes.trans h.writes
  issued := h'.issued.trans h.issued
  holder := h'.holder.trans h.holder
  election := h'.election.trans h.election
  composed hc := h'.composed (h.composed hc)
  applying := h'.applying.trans h.applying
  outbox := by rw [h'.outbox, h.outbox, List.append_assoc]
  plain deed hdeed := by
    obtain hdeed | hdeed := List.mem_append.mp hdeed
    · exact h.plain deed hdeed
    · obtain ⟨hplain, hserves⟩ := h'.plain deed hdeed
      refine ⟨hplain, fun message heq =>
        ⟨(hserves message heq).1, (hserves message heq).2.1, fun term hterm => ?_⟩⟩
      obtain ⟨holder, hserving, rfl⟩ := (hserves message heq).2.2 term hterm
      refine ⟨holder, ?_, rfl⟩
      rw [serving?, h.holder] at hserving
      exact hserving

theorem refl_rest (t : Tab) : Rest config [] t t [] where
  writes := rfl
  issued := rfl
  holder := rfl
  election := rfl
  composed h := h
  applying := List.Sublist.refl _
  outbox := (List.append_nil _).symm
  plain _ h := absurd h List.not_mem_nil

theorem setStatus_rest' (t : Tab) (status : SerialBrokerStatus) :
    Rest config [] t (t.setStatus status) [] := by
  unfold setStatus
  split
  · exact refl_rest t
  · have hstatus : Rest config [] t { t with status } [] :=
      { refl_rest t with composed := fun h => { h with } }
    exact hstatus.trans (push_rest rfl fun heq => by cases heq)

/-- A deed that concerns neither writes nor the election. -/
theorem act_rest (hplain : action.isPlain = true)
    (hserves : ∀ message, action = .send message → message.sender = config.clientId ∧
    message.target = .all ∧ ∀ term, message.body.spokenTerm? = some term →
    ∃ h, t.serving? = some h ∧ h.term = term) :
    Rest config [] t (t.act action) [action] :=
  { (refl_rest t : Rest config [] t t []) with
    composed := fun h => { h with }
    outbox := rfl
    plain := fun deed hdeed => by
      rw [List.mem_singleton.mp hdeed]
      exact ⟨hplain, hserves⟩ }

theorem send_rest {body : MessageBody} (hplain : body.isPlain = true)
    (hserves : ∀ term, body.spokenTerm? = some term → ∃ h, t.serving? = some h ∧ h.term = term) :
    Rest config [] t (t.send config .all body) [.send ⟨config.clientId, .all, body⟩] :=
  act_rest hplain fun message heq => by
    obtain rfl := Action.send.inj heq
    exact ⟨rfl, rfl, hserves⟩

/-! ### the terms -/

theorem ofWrite?_of_claim {claim : TermClaim} (h : message.claim? = some claim) :
    (TermEffect.apply message).ofWrite? = none := by
  cases hbody : message.body
    <;> simp_all [ProtocolMessage.claim?, TermEffect.ofWrite?, MessageBody.isOfWrite]

theorem ofWrite?_of_device (h : message.body.isAboutDevice = true) :
    (TermEffect.apply message).ofWrite? = none := by
  cases hbody : message.body
    <;> simp_all [MessageBody.isAboutDevice, TermEffect.ofWrite?, MessageBody.isOfWrite]

theorem applied_ofWrite {run : Waiting} {claim : TermClaim} (h : run.IsAbout claim) :
    run.applied.filterMap TermEffect.ofWrite? = [] := by
  cases run with
  | observe c message => simp [Waiting.applied, ofWrite?_of_claim h.2]
  | heardReleased => rfl
  | authorize message => simp [Waiting.applied, ofWrite?_of_device h.1]

theorem remember_ofWrite {s : OwnerTerms} {entry : KnownTerm} :
    (s.remember entry).2.filterMap TermEffect.ofWrite? = [] := by
  refine List.filterMap_eq_nil_iff.mpr fun effect heffect => ?_
  obtain ⟨e, -, rfl⟩ := OwnerTerms.shrink_effects heffect
  rfl

/-- The only message about a write that an input has applied is itself. -/
theorem handled_ofWrite {s s' : OwnerTerms} {next id : EntryId} {input : TermInput}
    (h : s.WellFormed next)
    (hh : OwnerTerms.Handled s id input s' effects) : effects.filterMap TermEffect.ofWrite? = [] ∨
      ∃ message, input = .message message ∧ effects.filterMap TermEffect.ofWrite? = [message] := by
  cases hh with
  | applied message hb =>
    by_cases hwrite : message.body.isOfWrite = true
    · exact Or.inr ⟨message, rfl, by simp [TermEffect.ofWrite?, hwrite]⟩
    · exact Or.inl (by simp [TermEffect.ofWrite?, hwrite])
  | asked message claim =>
    rw [List.filterMap_append, remember_ofWrite]
    exact Or.inl rfl
  | held entry he hc =>
    refine Or.inl (List.filterMap_eq_nil_iff.mpr fun effect heffect => ?_)
    obtain rfl | heffect := List.mem_cons.mp heffect
    · rfl
    obtain ⟨run, hrun, happlied⟩ := List.mem_flatMap.mp heffect
    exact List.filterMap_eq_nil_iff.mp (applied_ofWrite ((h.entries entry he).about run hrun))
      effect happlied
  | took claim => exact Or.inl remember_ofWrite
  | disposed =>
    refine Or.inl (List.filterMap_eq_nil_iff.mpr fun effect heffect => ?_)
    obtain ⟨entry, -, rfl⟩ := List.mem_map.mp heffect
    rfl
  | ignored | kept | heard | goodbye | unknown | free | ending | watched | endedOwn =>
    exact Or.inl rfl

/-- Something reaches the terms: of messages about writes, at most this one will be applied. -/
theorem handleTerms_rest (config : TabConfig) (t : Tab) (hc : t.Composed) (input : TermInput) :
    (∀ message, input ≠ .message message) ∧ Rest config [] t (t.handleTerms input) [] ∨
      ∃ message, input = .message message ∧ Rest config [message] t (t.handleTerms input) [] := by
  have hhandled : OwnerTerms.Handled t.terms t.nextKey input (t.terms.handle t.nextKey input).1
      (t.terms.handle t.nextKey input).2 :=
    OwnerTerms.handle_handled hc.terms
  have happlying : (t.handleTerms input).applying = (t.terms.handle t.nextKey input).2.filterMap
      TermEffect.ofWrite? ++ t.applying :=
    applying_cons
  have hrest : ∀ heard, ((t.terms.handle t.nextKey input).2.filterMap TermEffect.ofWrite?).Sublist
      heard →
      Rest config heard t (t.handleTerms input) [] := fun heard hsublist =>
    { writes := rfl
      issued := rfl
      holder := rfl
      election := rfl
      composed := fun h =>
        { h with
          terms := hhandled.wellFormed hc.terms (Nat.le_refl _)
          withdrawing := fun hin =>
            h.withdrawing ((List.mem_cons.mp hin).resolve_left fun heq => by cases heq)
          withdraws := fun hw => (h.withdraws hw).imp_left (List.mem_cons_of_mem _) }
      applying := happlying ▸ hsublist.append_right _
      outbox := (List.append_nil _).symm
      plain := fun _ hdeed => absurd hdeed List.not_mem_nil }
  obtain hnone | ⟨message, rfl, hone⟩ := handled_ofWrite hc.terms hhandled
  · cases input with
    | message message => exact Or.inr ⟨message, rfl, hrest _ (hnone ▸ List.nil_sublist _)⟩
    | checkAnswered | watchAnswered | takeOwn | endOwn | dispose =>
      exact Or.inl ⟨(fun _ heq => by cases heq), hrest _ (hnone ▸ List.nil_sublist _)⟩
  · exact Or.inr ⟨message, rfl, hrest _ (hone ▸ List.Sublist.refl _)⟩

/-! ### every move keeps the session together -/

theorem holder_of_serving? (hserving : t.serving? = some h) :
    t.holder = some h ∧ h.stage = .serving := holder_of_serving hserving

theorem Composed.setHolder (hc : t.Composed) (hholder : t.holder = some h)
    (hterm : h'.term = h.term)
    (hstage : h'.stage = .stopped ↔ h.stage = .stopped) : (t.setHolder h').Composed :=
  { hc with
    serving := fun g hg hrunning => by
      obtain rfl : h' = g := Option.some.inj hg
      rw [hterm]
      exact hc.serving h hholder fun hstopped => hrunning (hstage.mpr hstopped)
    port := fun g hg => by
      obtain rfl : h' = g := Option.some.inj hg
      rw [hterm, hstage]
      exact hc.port h hholder }

theorem Composed.withWrites (hc : t.Composed) (writes : List PendingWrite) (issued : List Payload)
    (outbox : List Action) :
    ({ t with writes, issued, outbox } : Tab).Composed := { hc with }

theorem Composed.act (hc : t.Composed) : (t.act action).Composed :=
  hc.withWrites t.writes t.issued _

theorem Composed.settle (hc : t.Composed) : (t.settle requestId outcome).Composed := by
  unfold Tab.settle
  split
  · exact hc
  · exact hc.withWrites _ t.issued _

theorem Composed.modifyWrite (hc : t.Composed) {f : PendingWrite → PendingWrite} :
    (t.modifyWrite requestId f).Composed :=
  hc.withWrites _ t.issued t.outbox

theorem Composed.hasStoppedHolding (hc : t.Composed) (hwithdrawn : t.isWithdrawn = true) :
    t.hasStoppedHolding = true := by
  unfold Tab.hasStoppedHolding
  cases hholder : t.holder with
  | none => rfl
  | some h =>
  refine decide_eq_true ?_
  by_contra hrunning
  have howner : t.election.isOwner = true := hc.acquired _ (hc.serving h hholder hrunning).1
  rw [hc.owner howner] at hwithdrawn
  cases hwithdrawn

theorem stage_of_hasStoppedHolding (hstopped : t.hasStoppedHolding = true)
    (hholder : t.holder = some h) : h.stage = .stopped := by
  unfold hasStoppedHolding at hstopped
  rw [hholder] at hstopped
  simpa using hstopped

/-- What `election.stop()` does to an election that was not stopped. -/
theorem stopElection_election (t : Tab) :
    t.stopElection.election.isStopped = true ∧
    t.stopElection.election.isOwner = t.election.isOwner ∧
    (t.election.isStopped = true ∧ t.stopElection = t ∨ t.election.isStopped = false ∧
      ∀ term, t.stopElection.election.phase ≠ .owner term) := by
  unfold stopElection
  split
  · next hstopped => exact ⟨hstopped, rfl, Or.inl ⟨hstopped, rfl⟩⟩
  · next hrunning =>
    have hrunning : t.election.isStopped = false := by simpa using hrunning
    cases hphase : t.election.phase <;> refine ⟨rfl, rfl, Or.inr ⟨hrunning, fun term heq => ?_⟩⟩
      <;> simp_all [act]

theorem stopElection_same (t : Tab) :
    t.stopElection.terms = t.terms ∧ t.stopElection.nextKey = t.nextKey ∧
    t.stopElection.stack = t.stack ∧
    t.stopElection.isWithdrawn = t.isWithdrawn ∧ t.stopElection.holder = t.holder ∧
      t.stopElection.writes = t.writes ∧
    t.stopElection.issued = t.issued ∧ t.stopElection.isReleased = t.isReleased := by
  unfold stopElection
  split
  · exact ⟨rfl, rfl, rfl, rfl, rfl, rfl, rfl, rfl⟩
  · split <;> exact ⟨rfl, rfl, rfl, rfl, rfl, rfl, rfl, rfl⟩

/-- An election that is stopped where no port is held any more. -/
theorem Composed.stopElection (hterms : t.terms.WellFormed t.nextKey)
    (hwithdrawing : .withdraw ∈ t.stack → t.isWithdrawn = true)
    (howner : t.election.isOwner = true → t.isWithdrawn = false)
    (hacquired : t.election.isStopped = true → ∀ term, t.election.phase = .owner term →
      t.election.isOwner = true)
    (hstopped : t.hasStoppedHolding = true) : t.stopElection.Composed := by
  obtain ⟨hstops, hsame, hphase⟩ := stopElection_election t
  obtain ⟨hterms', hnext, hstack, hwithdrawn, hholder, -⟩ := stopElection_same t
  refine ⟨by rw [hterms', hnext]; exact hterms, ?_, fun _ => Or.inr hstops, ?_, fun term heq => ?_,
    fun h hsome hrunning => ?_,
    fun h hsome => Or.inr ⟨?_, hstops⟩⟩
  · rw [hstack, hwithdrawn]
    exact hwithdrawing
  · rw [hsame, hwithdrawn]
    exact howner
  · obtain ⟨hbefore, hself⟩ | ⟨-, hnot⟩ := hphase
    · rw [hself] at heq ⊢
      exact hacquired hbefore term heq
    · exact absurd heq (hnot term)
  · rw [hholder] at hsome
    exact absurd (stage_of_hasStoppedHolding hstopped hsome) hrunning
  · rw [hholder] at hsome
    exact stage_of_hasStoppedHolding hstopped hsome

theorem disposed_wellFormed {s : OwnerTerms} (next : EntryId) : (s.dispose).1.WellFormed next where
  terms := List.nodup_nil
  keys := List.nodup_nil
  fresh _ h := absurd h List.not_mem_nil
  entries _ h := absurd h List.not_mem_nil
  current _ h := by cases h
  disposed _ _ h := absurd h List.not_mem_nil
  size := Nat.zero_le _
  led _ h := absurd h List.not_mem_nil

theorem Hears.composed (hears : t.Hears message t₀) (hc : t.Composed) :
    t₀.Composed ∧ t₀.holder = t.holder := by
  obtain ⟨effects, stack, hstack, rfl⟩ := hears
  exact ⟨hc.withStack (by rw [hstack]; simp), rfl⟩

theorem Composed.takeApproval (hc : t.Composed) {approved : Bool} :
    (t.takeApproval key term approved).Composed := by
  unfold Tab.takeApproval
  split
  · exact hc
  next h hserving =>
  split
  · exact hc
  split
  · exact hc
  · exact hc.setHolder (holder_of_serving hserving).1 rfl Iff.rfl

theorem Composed.approve (hc : t.Composed) : (t.approve requestId term).1.Composed := by
  unfold Tab.approve
  split
  · exact hc
  · split
    · exact hc
    · exact hc.modifyWrite

theorem chunkTaken_stage (job : Job) (connection : ConnectionId) (offset bytes : Nat) :
    (h.chunkTaken job connection offset bytes).term = h.term ∧
      (h.chunkTaken job connection offset bytes).stage = h.stage := by
  unfold Holder.chunkTaken
  dsimp only
  split
  · split
    · exact ⟨rfl, rfl⟩
    · exact ⟨rfl, rfl⟩
  · exact ⟨rfl, rfl⟩

/-- **Every move keeps what the parts of a session say about each other.** -/
theorem Move.composed (hm : Move config discipline t t') (hc : t.Composed) : t'.Composed := by
  have hset : ∀ {h h' : Holder}, t.holder = some h → h'.term = h.term → h'.stage = h.stage →
      (t.setHolder h').Composed :=
    fun hholder hterm hstage => hc.setHolder hholder hterm (by rw [hstage])
  cases hm with
  | rest _ deeds hrest => exact hrest.composed hc
  | requests hphase hrunning =>
    have hnone : t.holder = none := by
      by_contra hsome
      obtain ⟨h, hholder⟩ := Option.ne_none_iff_exists'.mp hsome
      obtain howner | ⟨-, hstopped⟩ := hc.port h hholder
      · rw [howner] at hphase
        obtain hphase | hphase := hphase <;> cases hphase
      · rw [hrunning] at hstopped
        cases hstopped
    have hstart : t.startElection =
        { t with election := { t.election with phase := .requested } }.act .requestOwnerLock := by
      unfold startElection
      rw [if_neg (by rw [hrunning]; decide)]
      obtain hphase | hphase := hphase <;> rw [hphase]
    rw [hstart]
    exact { hc with
      acquired := fun _ heq => by cases heq
      serving := fun h hsome => by
        have hsome : t.holder = some h := hsome
        rw [hnone] at hsome
        cases hsome
      port := fun h hsome => by
        have hsome : t.holder = some h := hsome
        rw [hnone] at hsome
        cases hsome }
  | stops hstopped =>
    exact .stopElection hc.terms hc.withdrawing hc.owner (fun _ => hc.acquired) hstopped
  | withdraws stack hstack =>
    have hwithdrawn : t.isWithdrawn = true := hc.withdrawing (hstack ▸ List.mem_cons_self)
    refine .stopElection (disposed_wellFormed (s := t.terms) t.nextKey) (fun _ => hwithdrawn)
      hc.owner (fun _ => hc.acquired) ?_
    exact hc.hasStoppedHolding hwithdrawn
  | issues payload => exact hc.withWrites _ _ t.outbox
  | settles w hw outcome => exact hc.settle
  | marks requestId f => exact hc.modifyWrite
  | asks w hw term => exact hc.act
  | admits w hw h hserving => exact hset (holder_of_serving hserving).1 rfl rfl
  | recalls w hw hstarted h hserving outcome => exact hc.settle
  | hearsRequest message t₀ hears requestId payload h hbody hserving accepted hnew =>
    obtain ⟨hc₀, hsame⟩ := hears.composed hc
    exact hc₀.setHolder (hsame.trans (holder_of_serving hserving).1) rfl Iff.rfl
  | hearsAgain message t₀ hears requestId payload h hbody hserving outcome hwhy =>
    obtain ⟨hc₀, hsame⟩ := hears.composed hc
    refine Composed.act ?_
    exact hc₀.setHolder (hsame.trans (holder_of_serving hserving).1) rfl Iff.rfl
  | hearsReady message t₀ hears requestId term question hbody =>
    exact (hears.composed hc).1.approve.act
  | hearsApproval message t₀ hears requestId term approved question hbody htakes =>
    exact (hears.composed hc).1.takeApproval
  | hearsUnconnected message t₀ hears => exact (hears.composed hc).1.modifyWrite
  | hearsResult message t₀ hears => exact (hears.composed hc).1.settle
  | connects h hholder | endsFirst h hholder | expiresAsked h hholder | turnsBack h hholder
  | failsChunk h hholder
  | endsStall h hholder | expiresQueued h hholder => exact hset hholder rfl rfl
  | beginsOwn h hholder =>
    refine Composed.act ?_
    exact hc.modifyWrite.setHolder hholder rfl Iff.rfl
  | asksToBegin h hholder | answersPeer h hholder | begins h hholder =>
    refine Composed.act ?_
    exact hset hholder rfl rfl
  | takesChunk h hholder job connection offset hrunning =>
    obtain ⟨hterm, hstage⟩ :=
      chunkTaken_stage (h := h) job connection offset
      (min config.maxWriteChunkBytes (job.payload.length - offset))
    exact hc.act.setHolder hholder hterm (by rw [hstage])
  | answersOwn h hholder ended hended hforgets horigin _ ht' => exact ht' ▸ hset hholder rfl rfl
  | handsBackOwn h hholder =>
    refine Composed.modifyWrite ?_
    exact hset hholder rfl rfl
  | settlesOwn h hholder =>
    refine Composed.settle ?_
    exact hset hholder rfl rfl
  | givesUp h hserving =>
    obtain ⟨hholder, hstage⟩ := holder_of_serving hserving
    refine hc.setHolder hholder rfl ⟨(fun heq => by cases heq), fun heq => ?_⟩
    rw [hstage] at heq
    cases heq
  | tearsDown h hholder hstopping =>
    refine hc.setHolder hholder rfl ⟨(fun heq => by cases heq), fun heq => ?_⟩
    rw [hstopping] at heq
    cases heq
  | saysGoodbye h hholder deadline hstage =>
    exact .stopElection hc.terms hc.withdrawing hc.owner (fun _ => hc.acquired) rfl

/-! ### moves from an empty outbox -/

theorem settle_deeds (t : Tab) (requestId : RequestId) (outcome : WriteOutcome) :
    ∃ deeds, (t.settle requestId outcome).outbox = t.outbox ++ deeds ∧
      ({ t with outbox := [] } : Tab).settle requestId outcome =
        { t.settle requestId outcome with outbox := deeds } := by
  have hpending : ({ t with outbox := [] } : Tab).pending? requestId = t.pending? requestId := rfl
  unfold settle
  rw [hpending]
  split
  · exact ⟨[], (List.append_nil _).symm, rfl⟩
  · exact ⟨_, rfl, rfl⟩

theorem startElection_deeds (t : Tab) : ∃ deeds, t.startElection.outbox = t.outbox ++ deeds ∧
    ({ t with outbox := [] } : Tab).startElection = { t.startElection with outbox := deeds } := by
  unfold startElection
  dsimp only
  split
  · exact ⟨[], (List.append_nil _).symm, rfl⟩
  · split
    · exact ⟨_, rfl, rfl⟩
    · exact ⟨_, rfl, rfl⟩
    · exact ⟨[], (List.append_nil _).symm, rfl⟩

theorem stopElection_deeds (t : Tab) :
    ∃ deeds : List Action, (∀ deed ∈ deeds, deed = .withdrawOwnerRequest) ∧ ∀ outbox,
    ({ t with outbox } : Tab).stopElection = { t.stopElection with outbox := outbox ++ deeds } := by
  have hnone : ∀ deed ∈ ([] : List Action), deed = .withdrawOwnerRequest :=
    fun _ h => absurd h List.not_mem_nil
  by_cases hstopped : t.election.isStopped = true
  · exact ⟨[], hnone, fun outbox => by simp [stopElection, hstopped]⟩
  · cases hphase : t.election.phase with
    | requested =>
      exact ⟨[.withdrawOwnerRequest], fun _ h => List.mem_singleton.mp h,
        fun outbox => by simp [stopElection, hstopped, hphase, act]⟩
    | off | paused | locking | owner | leaving | left =>
      exact ⟨[], hnone, fun outbox => by simp [stopElection, hstopped, hphase]⟩

theorem takeApproval_deeds (t : Tab) (key : WriteKey) (term : TermId) (approved : Bool) :
    (t.takeApproval key term approved).outbox = t.outbox ∧
      ({ t with outbox := [] } : Tab).takeApproval key term approved =
        { t.takeApproval key term approved with outbox := [] } := by
  have hserving : ({ t with outbox := [] } : Tab).serving? = t.serving? := rfl
  unfold takeApproval
  rw [hserving]
  split
  · exact ⟨rfl, rfl⟩
  split
  · exact ⟨rfl, rfl⟩
  split
  · exact ⟨rfl, rfl⟩
  · exact ⟨rfl, rfl⟩

theorem approve_deeds (t : Tab) (requestId : RequestId) (term : TermId) :
    (t.approve requestId term).1.outbox = t.outbox ∧
      ({ t with outbox := [] } : Tab).approve requestId term =
        ({ (t.approve requestId term).1 with outbox := [] }, (t.approve requestId term).2) := by
  have hpending : ({ t with outbox := [] } : Tab).pending? requestId = t.pending? requestId := rfl
  unfold approve
  rw [hpending]
  split
  · exact ⟨rfl, rfl⟩
  split
  · exact ⟨rfl, rfl⟩
  · exact ⟨rfl, rfl⟩

theorem Hears.flush (hears : t.Hears message t₀) :
    ({ t with outbox := [] } : Tab).Hears message { t₀ with outbox := [] } ∧
    t₀.outbox = t.outbox := by
  obtain ⟨effects, stack, hstack, rfl⟩ := hears
  exact ⟨⟨effects, stack, hstack, rfl⟩, rfl⟩

/-- What a move does outside does not depend on what was done before it. -/
theorem Move.flush (hm : Move config discipline t t') :
    ∃ deeds, t'.outbox = t.outbox ++ deeds ∧ Move config discipline
      ({ t with outbox := [] } : Tab) { t' with outbox := deeds } := by
  have hnil : t.outbox = t.outbox ++ [] := (List.append_nil _).symm
  cases hm with
  | rest _ deeds hrest =>
    refine ⟨deeds, hrest.outbox, .rest (t := { t with outbox := [] }) _ deeds ?_⟩
    exact { hrest with
      composed := fun h =>
        (hrest.composed (h.withWrites t.writes t.issued t.outbox)).withWrites _ _ deeds
      outbox := rfl }
  | requests hphase hrunning =>
    obtain ⟨deeds, houtbox, hsame⟩ := startElection_deeds t
    exact ⟨deeds, houtbox, hsame ▸ .requests (t := { t with outbox := [] }) hphase hrunning⟩
  | stops hstopped =>
    obtain ⟨deeds, -, hsame⟩ := stopElection_deeds t
    exact ⟨deeds, congrArg Tab.outbox (hsame t.outbox), hsame [] ▸
      .stops (t := { t with outbox := [] }) hstopped⟩
  | withdraws stack hstack =>
    obtain ⟨deeds, -, hsame⟩ := stopElection_deeds { t with stack, terms := t.terms.dispose.1 }
    exact ⟨deeds, congrArg Tab.outbox (hsame t.outbox), hsame [] ▸
      .withdraws (t := { t with outbox := [] }) stack hstack⟩
  | issues payload => exact ⟨[], hnil, .issues (t := { t with outbox := [] }) payload⟩
  | settles w hw outcome hrejected hstarted =>
    obtain ⟨deeds, houtbox, hsame⟩ := settle_deeds t w.requestId outcome
    exact ⟨deeds, houtbox, hsame ▸
      .settles (t := { t with outbox := [] }) w hw outcome hrejected hstarted⟩
  | marks requestId f hsame haddress =>
    exact ⟨[], hnil, .marks (t := { t with outbox := [] }) requestId f hsame haddress⟩
  | asks w hw term => exact ⟨_, rfl, .asks (t := { t with outbox := [] }) w hw term⟩
  | admits w hw h hserving accepted hnew =>
    exact ⟨[], hnil, .admits (t := { t with outbox := [] }) w hw h hserving accepted hnew⟩
  | recalls w hw hstarted h hserving outcome hfinished =>
    obtain ⟨deeds, houtbox, hsame⟩ := settle_deeds t w.requestId outcome
    exact ⟨deeds, houtbox, hsame ▸
      .recalls (t := { t with outbox := [] }) w hw hstarted h hserving outcome hfinished⟩
  | hearsRequest message t₀ hears requestId payload h hbody hserving accepted hnew =>
    obtain ⟨hears', hsame⟩ := hears.flush
    exact ⟨[], hsame.trans hnil, .hearsRequest (t := { t with
      outbox := [] }) message _ hears' requestId payload h hbody hserving accepted hnew⟩
  | hearsAgain message t₀ hears requestId payload h hbody hserving outcome hwhy =>
    obtain ⟨hears', hsame⟩ := hears.flush
    refine ⟨[_], ?_, .hearsAgain (t := { t with outbox := [] }) message _ hears' requestId payload h
      hbody hserving outcome hwhy⟩
    rw [← hsame]
    rfl
  | hearsReady message t₀ hears requestId term question hbody =>
    obtain ⟨hears', hsame⟩ := hears.flush
    obtain ⟨houtbox, happrove⟩ := approve_deeds t₀ requestId term
    have hmove : Move config discipline ({ t with outbox := [] } : Tab) _ :=
      .hearsReady (t := { t with outbox := [] }) message _ hears' requestId term question hbody
    rw [happrove] at hmove
    refine ⟨[_], ?_, hmove⟩
    rw [← hsame, ← houtbox]
    rfl
  | hearsApproval message t₀ hears requestId term approved question hbody htakes =>
    obtain ⟨hears', hsame⟩ := hears.flush
    obtain ⟨houtbox, htake⟩ := takeApproval_deeds t₀ ⟨message.sender, requestId⟩ term approved
    have hmove : Move config discipline ({ t with outbox := [] } : Tab) _ :=
      .hearsApproval (t := { t with outbox := [] }) message _ hears' requestId term approved
      question hbody htakes
    rw [htake] at hmove
    exact ⟨[], (houtbox.trans hsame).trans hnil, hmove⟩
  | hearsUnconnected message t₀ hears w hw term hterm ok error hbody outcome hresult houtcome =>
    obtain ⟨hears', hsame⟩ := hears.flush
    exact ⟨[], hsame.trans hnil, .hearsUnconnected (t := { t with
      outbox := [] }) message _ hears' w hw term hterm ok error hbody outcome hresult houtcome⟩
  | hearsResult message t₀ hears w hw term hterm ok error hbody outcome hresult =>
    obtain ⟨hears', hsame⟩ := hears.flush
    obtain ⟨deeds, houtbox, hsettle⟩ := settle_deeds t₀ w.requestId outcome
    exact ⟨deeds, hsame ▸ houtbox, hsettle ▸ .hearsResult (t := { t with
      outbox := [] }) message _ hears' w hw term hterm ok error hbody outcome hresult⟩
  | connects h hholder connection nextConnection hconnection =>
    exact ⟨[], hnil,
      .connects (t := { t with outbox := [] }) h hholder connection nextConnection hconnection⟩
  | endsFirst h hholder job rest hwaiting hrunning outcome hunbegun =>
    exact ⟨[], hnil, .endsFirst (t := { t with outbox := [] }) h hholder job rest hwaiting hrunning
      outcome hunbegun⟩
  | beginsOwn h hholder job rest hwaiting hrunning horigin connection hconnection w hw hid hterm =>
    exact ⟨_, rfl, .beginsOwn (t := { t with outbox := [] }) h hholder job rest hwaiting hrunning
      horigin connection hconnection w hw hid hterm⟩
  | asksToBegin h hholder job rest hwaiting hrunning horigin connection hconnection =>
    exact ⟨_, rfl, .asksToBegin (t := { t with outbox := [] }) h hholder job rest hwaiting hrunning
      horigin connection hconnection⟩
  | expiresAsked h hholder job question hrunning =>
    exact ⟨[], hnil, .expiresAsked (t := { t with outbox := [] }) h hholder job question hrunning⟩
  | begins h hholder job hrunning connection hconnection =>
    exact ⟨_, rfl,
      .begins (t := { t with outbox := [] }) h hholder job hrunning connection hconnection⟩
  | turnsBack h hholder job isApproved hrunning outcome hunbegun =>
    exact ⟨[], hnil, .turnsBack (t := { t with outbox := [] }) h hholder job isApproved hrunning
      outcome hunbegun⟩
  | takesChunk h hholder job connection offset hrunning =>
    exact ⟨_, rfl,
      .takesChunk (t := { t with outbox := [] }) h hholder job connection offset hrunning⟩
  | failsChunk h hholder job connection offset hrunning outcome hbegun hfailed running' hrunning' c
      hconnection =>
    exact ⟨[], hnil, .failsChunk (t := { t with outbox := [] }) h hholder job connection offset
      hrunning outcome hbegun hfailed running' hrunning' c hconnection⟩
  | endsStall h hholder job connection hrunning c hconnection =>
    exact ⟨[], hnil, .endsStall (t := { t with outbox := [] }) h hholder job connection hrunning
      c hconnection⟩
  | expiresQueued h hholder job hjob =>
    exact ⟨[], hnil, .expiresQueued (t := { t with outbox := [] }) h hholder job hjob⟩
  | answersPeer h hholder ended hended hforgets horigin =>
    exact ⟨_, rfl,
      .answersPeer (t := { t with outbox := [] }) h hholder ended hended hforgets horigin⟩
  | answersOwn h hholder ended hended hforgets horigin _ ht' hother =>
    subst ht'
    exact ⟨[], hnil, .answersOwn (t := { t with
      outbox := [] }) h hholder ended hended hforgets horigin _ rfl hother⟩
  | handsBackOwn h hholder ended hended hforgets horigin w hw hid hterm houtcome =>
    exact ⟨[], hnil, .handsBackOwn (t := { t with
      outbox := [] }) h hholder ended hended hforgets horigin w hw hid hterm houtcome⟩
  | settlesOwn h hholder ended hended hforgets horigin w hw hid hterm =>
    obtain ⟨deeds, houtbox, hsame⟩ := settle_deeds (t.setHolder { h with
        ended := h.ended.filter fun e => e.job.id ≠ ended.job.id
        accepted := h.accepted.finish ended.job.key ended.outcome }) w.requestId ended.outcome
    exact ⟨deeds, houtbox, hsame ▸ .settlesOwn (t := { t with
      outbox := [] }) h hholder ended hended hforgets horigin w hw hid hterm⟩
  | givesUp h hserving => exact ⟨[], hnil, .givesUp (t := { t with outbox := [] }) h hserving⟩
  | tearsDown h hholder hstopping =>
    exact ⟨[], hnil, .tearsDown (t := { t with outbox := [] }) h hholder hstopping⟩
  | saysGoodbye h hholder deadline hstage hanswered =>
    obtain ⟨deeds, -, hsame⟩ := stopElection_deeds (t.setHolder { h with stage := .stopped })
    have hmove : Move config discipline ({ t with outbox := [] } : Tab) _ :=
      .saysGoodbye (t := { t with outbox := [] }) h hholder deadline hstage hanswered
    have hthere := hsame (([] ++ [.requestGoodbye h.term]) ++
      [.send ⟨config.clientId, .all, .ownerReleased h.term⟩])
    have hhere := hsame ((t.outbox ++ [.requestGoodbye h.term]) ++
      [.send ⟨config.clientId, .all, .ownerReleased h.term⟩])
    refine ⟨[.requestGoodbye h.term, .send ⟨config.clientId, .all, .ownerReleased h.term⟩] ++
      deeds, ?_, ?_⟩
    · refine (congrArg Tab.outbox hhere).trans ?_
      simp
    · refine Eq.subst (motive := fun t' : Tab => Move config discipline ({ t with
          outbox := [] } : Tab) { t' with
        outbox := [.requestGoodbye h.term, .send ⟨config.clientId, .all, .ownerReleased h.term⟩] ++
          deeds }) hhere.symm ?_
      refine Eq.subst (motive := fun target => Move config discipline
          ({ t with outbox := [] } : Tab) target) ?_ hmove
      exact hthere

/-! ### what a move sends, and what it leaves to apply -/

theorem effects_applying :
    (TurnFrame.effects (effect :: effects)).applying = effect.ofWrite?.toList ++
    (TurnFrame.effects effects).applying := by
  cases hof : effect.ofWrite? with
  | none => simp [TurnFrame.applying, hof]
  | some message => simp [TurnFrame.applying, hof]

theorem Hears.applying (hears : t.Hears message t₀) (hwrite : message.body.isOfWrite = true) :
    t.applying = message :: t₀.applying := by
  obtain ⟨effects, stack, hstack, rfl⟩ := hears
  have hcons : t.applying = (TurnFrame.effects (.apply message :: effects)).applying ++
      ({ t with stack } : Tab).applying := by
    rw [Tab.applying, hstack]
    simp [Tab.applying]
  rw [hcons, effects_applying, applying_cons]
  simp [TermEffect.ofWrite?, hwrite]

theorem settle_applying (t : Tab) (requestId : RequestId) (outcome : WriteOutcome) :
    (t.settle requestId outcome).applying = t.applying ∧
      ∀ deed ∈ (t.settle requestId outcome).outbox, deed ∈ t.outbox ∨
        deed = .settled requestId outcome := by
  unfold settle
  split
  · exact ⟨rfl, fun _ h => Or.inl h⟩
  · exact ⟨rfl, fun deed h => (List.mem_append.mp h).imp_right List.mem_singleton.mp⟩

theorem startElection_applying (t : Tab) :
    t.startElection.applying = t.applying ∧ ∀ deed ∈ t.startElection.outbox, deed ∈ t.outbox ∨
      deed = .requestOwnerLock := by
  unfold startElection
  split
  · exact ⟨rfl, fun _ h => Or.inl h⟩
  · split
    · exact ⟨rfl, fun deed h => (List.mem_append.mp h).imp_right List.mem_singleton.mp⟩
    · exact ⟨rfl, fun deed h => (List.mem_append.mp h).imp_right List.mem_singleton.mp⟩
    · exact ⟨rfl, fun _ h => Or.inl h⟩

theorem stopElection_applying (t : Tab) :
    t.stopElection.applying = t.applying ∧ ∀ deed ∈ t.stopElection.outbox, deed ∈ t.outbox ∨
      deed = .withdrawOwnerRequest := by
  refine ⟨congrArg (List.flatMap TurnFrame.applying) (stopElection_same t).2.2.1, fun deed h => ?_⟩
  unfold stopElection at h
  split at h
  · exact Or.inl h
  · split at h
    · exact Or.inl h
    · exact Or.inl h
    · exact (List.mem_append.mp h).imp_right List.mem_singleton.mp
    · exact Or.inl h
    · exact Or.inl h

theorem approve_applying (t : Tab) (requestId : RequestId) (term : TermId) :
    (t.approve requestId term).1.applying = t.applying := by
  unfold approve
  split
  · rfl
  split
  · rfl
  · rfl

theorem takeApproval_applying (t : Tab) (key : WriteKey) (term : TermId) (approved : Bool) :
    (t.takeApproval key term approved).applying = t.applying := by
  unfold takeApproval
  split
  · rfl
  split
  · rfl
  split
  · rfl
  · rfl

/-- The turn has no more to apply after a move than before. -/
theorem Move.applying (hm : Move config discipline t t') : t'.applying.Sublist t.applying := by
  have hheard : ∀ {message : ProtocolMessage} {t₀ : Tab}, t.Hears message t₀ →
      message.body.isOfWrite = true →
      t₀.applying.Sublist t.applying := fun hears hwrite => by
    rw [hears.applying hwrite]
    exact List.sublist_cons_self _ _
  cases hm with
  | rest _ deeds hrest => simpa using hrest.applying
  | requests => exact (startElection_applying t).1 ▸ List.Sublist.refl _
  | stops => exact (stopElection_applying t).1 ▸ List.Sublist.refl _
  | withdraws stack hstack =>
    rw [(stopElection_applying _).1]
    have hcons : t.applying = TurnFrame.withdraw.applying ++ ({ t with stack } : Tab).applying := by
      rw [Tab.applying, hstack]
      simp [Tab.applying]
    rw [hcons]
    exact List.sublist_append_right _ _
  | settles w hw outcome => exact (settle_applying t _ _).1 ▸ List.Sublist.refl _
  | recalls w hw hstarted h hserving outcome =>
    exact (settle_applying t _ _).1 ▸ List.Sublist.refl _
  | hearsRequest message t₀ hears requestId payload h hbody =>
    have hsub := hheard hears (by rw [hbody]; rfl)
    exact hsub
  | hearsAgain message t₀ hears requestId payload h hbody =>
    have hsub := hheard hears (by rw [hbody]; rfl)
    exact hsub
  | hearsReady message t₀ hears requestId term question hbody =>
    exact (approve_applying t₀ requestId term) ▸ hheard hears (by rw [hbody]; rfl)
  | hearsApproval message t₀ hears requestId term approved question hbody htakes =>
    rw [takeApproval_applying]
    exact hheard hears (by rw [hbody]; rfl)
  | hearsUnconnected message t₀ hears w hw term hterm ok error hbody =>
    have hsub := hheard hears (by rw [hbody]; rfl)
    exact hsub
  | hearsResult message t₀ hears w hw term hterm ok error hbody =>
    rw [(settle_applying t₀ _ _).1]
    exact hheard hears (by rw [hbody]; rfl)
  | answersOwn h hholder ended hended hforgets horigin _ ht' => exact ht' ▸ List.Sublist.refl _
  | settlesOwn h hholder ended hended hforgets horigin w hw =>
    rw [(settle_applying _ _ _).1]
    exact List.Sublist.refl _
  | saysGoodbye h hholder =>
    rw [(stopElection_applying _).1]
    exact List.Sublist.refl _
  | issues | marks | asks | admits | connects | endsFirst | beginsOwn | asksToBegin | expiresAsked
  | begins | turnsBack | takesChunk
  | failsChunk | endsStall | expiresQueued | answersPeer | handsBackOwn | givesUp | tearsDown =>
    exact List.Sublist.refl _

/-- **A tab speaks for itself, and to others.** -/
theorem Move.sends (hm : Move config discipline t t') (houtbox : t.outbox = [])
    (hforeign : ∀ message ∈ t.applying, message.sender ≠ config.clientId)
    (hsent : .send message ∈ t'.outbox) :
    message.sender = config.clientId ∧ message.target ≠ .client config.clientId := by
  have hsettled : ∀ {t₀ : Tab} {requestId : RequestId} {outcome : WriteOutcome}, t₀.outbox = [] →
      .send message ∉ (t₀.settle requestId outcome).outbox := fun hempty hmem => by
    obtain hmem | hmem := (settle_applying _ _ _).2 _ hmem
    · rw [hempty] at hmem
      cases hmem
    · cases hmem
  have hself : ∀ {target : MessageTarget} {body : MessageBody}, target ≠ .client config.clientId →
      .send message ∈ t.outbox ++ [.send ⟨config.clientId, target, body⟩] →
        message.sender = config.clientId ∧ message.target ≠ .client config.clientId :=
          fun htarget hmem => by
    rw [houtbox, List.nil_append, List.mem_singleton] at hmem
    obtain rfl := Action.send.inj hmem
    exact ⟨rfl, htarget⟩
  have hnone : .send message ∈ t.outbox → False := fun hmem => by
    rw [houtbox] at hmem
    cases hmem
  cases hm with
  | rest _ deeds hrest =>
    rw [hrest.outbox, houtbox] at hsent
    obtain ⟨hsender, htarget, -⟩ := (hrest.plain _ hsent).2 message rfl
    exact ⟨hsender, by rw [htarget]; simp⟩
  | requests =>
    obtain hmem | hmem := (startElection_applying t).2 _ hsent
    · exact (hnone hmem).elim
    · cases hmem
  | stops =>
    obtain hmem | hmem := (stopElection_applying t).2 _ hsent
    · exact (hnone hmem).elim
    · cases hmem
  | withdraws stack hstack =>
    obtain hmem | hmem := (stopElection_applying _).2 _ hsent
    · exact (hnone hmem).elim
    · cases hmem
  | settles => exact absurd hsent (hsettled houtbox)
  | recalls => exact absurd hsent (hsettled houtbox)
  | asks => exact hself (by simp) hsent
  | hearsAgain message' t₀ hears requestId payload h hbody =>
    have happlying : t.applying = _ := hears.applying (by rw [hbody]; rfl)
    obtain ⟨-, hsame⟩ := hears.flush
    have hsender : message'.sender ≠ config.clientId :=
      hforeign message' (happlying ▸ List.mem_cons_self)
    have hsent : Action.send message ∈ t₀.outbox ++ [_] := hsent
    rw [hsame] at hsent
    exact hself (fun heq => hsender (MessageTarget.client.inj heq)) hsent
  | hearsReady message' t₀ hears requestId term question hbody =>
    have happlying : t.applying = _ := hears.applying (by rw [hbody]; rfl)
    obtain ⟨-, hsame⟩ := hears.flush
    have hsender : message'.sender ≠ config.clientId :=
      hforeign message' (happlying ▸ List.mem_cons_self)
    have hsent : Action.send message ∈ (t₀.approve requestId term).1.outbox ++ [_] := hsent
    rw [(approve_deeds t₀ requestId term).1, hsame] at hsent
    exact hself (fun heq => hsender (MessageTarget.client.inj heq)) hsent
  | hearsRequest message' t₀ hears =>
    obtain ⟨-, hsame⟩ := hears.flush
    exact (hnone (hsame ▸ hsent)).elim
  | hearsApproval message' t₀ hears =>
    obtain ⟨-, hsame⟩ := hears.flush
    rw [(takeApproval_deeds t₀ _ _ _).1, hsame] at hsent
    exact (hnone hsent).elim
  | hearsUnconnected message' t₀ hears =>
    obtain ⟨-, hsame⟩ := hears.flush
    exact (hnone (hsame ▸ hsent)).elim
  | hearsResult message' t₀ hears =>
    obtain ⟨-, hsame⟩ := hears.flush
    exact absurd hsent (hsettled (hsame.trans houtbox))
  | beginsOwn h hholder job =>
    have hsent : Action.send message ∈ t.outbox ++ [.began job.key h.term] := hsent
    rw [houtbox, List.nil_append, List.mem_singleton] at hsent
    cases hsent
  | begins h hholder job =>
    have hsent : Action.send message ∈ t.outbox ++ [.began job.key h.term] := hsent
    rw [houtbox, List.nil_append, List.mem_singleton] at hsent
    cases hsent
  | takesChunk h hholder job connection offset =>
    have hsent : Action.send message ∈ t.outbox ++ [.chunkTaken job.key h.term offset _] := hsent
    rw [houtbox, List.nil_append, List.mem_singleton] at hsent
    cases hsent
  | asksToBegin h hholder job rest hwaiting hrunning horigin =>
    exact hself (fun heq => horigin (MessageTarget.client.inj heq)) hsent
  | answersPeer h hholder ended hended hforgets horigin =>
    exact hself (fun heq => horigin (MessageTarget.client.inj heq)) hsent
  | answersOwn h hholder ended hended hforgets horigin _ ht' =>
    subst ht'
    exact (hnone hsent).elim
  | settlesOwn h hholder ended hended hforgets horigin w hw => exact absurd hsent (hsettled houtbox)
  | saysGoodbye h hholder =>
    obtain hmem | hmem := (stopElection_applying _).2 _ hsent
    · have hmem : Action.send message ∈ (t.outbox ++ [.requestGoodbye h.term]) ++
        [.send ⟨config.clientId, .all, .ownerReleased h.term⟩] := hmem
      rw [houtbox] at hmem
      obtain hmem | hmem := List.mem_append.mp hmem
      · cases List.mem_singleton.mp hmem
      · obtain rfl := Action.send.inj (List.mem_singleton.mp hmem)
        exact ⟨rfl, by simp⟩
    · cases hmem
  | issues | marks | admits | connects | endsFirst | expiresAsked | turnsBack | failsChunk
  | endsStall | expiresQueued | handsBackOwn
  | givesUp | tearsDown => exact (hnone hsent).elim

end Tab

end SerialBroker
