import SerialBroker.System.WriteView

/-!
# What a tab does to the writes at its port

Every move of a tab takes each write a few steps of `Entrusting` further at the tab's port, or
leaves it there. One move needs the issuer too: a tab begins a write of its own without asking.
-/

namespace SerialBroker

open Entrusting.State (Steps)

/-- Whether a yes that a port takes answers the question it asks. -/
def answersAsked (holder : Option Holder) (message : ProtocolMessage) : Bool :=
  match message.body, holder with
  | .writeApproval requestId term true question, some h =>
    match h.running with
    | some ⟨job, .asking asked⟩ =>
      job.key ≠ ⟨message.sender, requestId⟩ ∨ h.term ≠ term ∨ question = asked
    | _ => true
  | _, _ => true

namespace Tab

open SerialBroker.System (served served_silent served_of_holder reportsBy IsSilent)

variable {t t' t₀ : Tab} {config : TabConfig} {discipline : Discipline} {h h' : Holder}
  {key key' : WriteKey} {v : WriteState}
  {message : ProtocolMessage} {deed : Action} {outcome : WriteOutcome} {job : Job} {rest : List Job}

theorem isSilent_of_all (h : ∀ deed ∈ t'.outbox, deed.isPlain = true ∨ deed.isOwnerLockCall = true ∨
      (∃ requestId outcome, deed = .settled requestId outcome)) :
    IsSilent key t'.outbox := by
  intro deed hdeed
  obtain hplain | hlock | ⟨requestId, outcome, rfl⟩ := h deed hdeed
  · cases deed with
    | send message =>
      refine ⟨rfl, rfl, fun m heq _ => ?_⟩
      obtain rfl := Action.send.inj heq
      have hbody : message.body.isPlain = true := hplain
      cases hm : message.body <;> simp_all [MessageBody.isPlain, MessageBody.report?]
    | check | watch | abortWatch => exact ⟨rfl, rfl, fun _ heq => by cases heq⟩
    | requestOwnerLock | withdrawOwnerRequest | requestTermLock | requestGoodbye | began
    | chunkTaken | settled => cases hplain
  · cases deed with
    | requestOwnerLock | withdrawOwnerRequest => exact ⟨rfl, rfl, fun _ heq => by cases heq⟩
    | send | requestTermLock | requestGoodbye | check | watch | abortWatch | began | chunkTaken
    | settled => cases hlock
  · exact ⟨rfl, rfl, fun _ heq => by cases heq⟩

theorem isSilent_settle (houtbox : t.outbox = []) (requestId : RequestId) (outcome : WriteOutcome) :
    IsSilent key (t.settle requestId outcome).outbox := isSilent_of_all fun deed hdeed => by
  obtain hdeed | rfl := (settle_applying t requestId outcome).2 deed hdeed
  · rw [houtbox] at hdeed
    cases hdeed
  · exact Or.inr (Or.inr ⟨requestId, outcome, rfl⟩)

theorem isSilent_startElection (houtbox : t.outbox = []) : IsSilent key t.startElection.outbox :=
  isSilent_of_all fun deed hdeed => by
    obtain hdeed | rfl := (startElection_applying t).2 deed hdeed
    · rw [houtbox] at hdeed
      cases hdeed
    · exact Or.inr (Or.inl rfl)

/-- A stopped election withdraws a request at most. -/
theorem isSilent_stopElection (houtbox : IsSilent key t.outbox) :
    IsSilent key t.stopElection.outbox :=
  fun deed hdeed => by
    obtain hdeed | rfl := (stopElection_applying t).2 deed hdeed
    · exact houtbox deed hdeed
    · exact ⟨rfl, rfl, fun _ heq => by cases heq⟩

theorem isSilent_act (houtbox : IsSilent key t.outbox) (hdeed : IsSilent key [deed]) :
    IsSilent key (t.act deed).outbox := fun other hother =>
  (List.mem_append.mp hother).elim (houtbox other) (hdeed other)

/-- What a message reports of no write. -/
theorem isSilent_send {target : MessageTarget} {body : MessageBody}
    (hbody : body.report? key.requestId = none) :
    IsSilent key [.send ⟨config.clientId, target, body⟩] := fun deed hdeed => by
  rw [List.mem_singleton.mp hdeed]
  exact ⟨rfl, rfl, fun message heq _ => Action.send.inj heq ▸ hbody⟩

/-- A message to one tab, as that tab's write or another one sees it. -/
theorem reportsBy_single (origin : ClientId) (body : MessageBody) :
    reportsBy config.clientId key [.send ⟨config.clientId, .client origin, body⟩] =
    if origin = key.origin then (body.report? key.requestId).toList else [] := by
  by_cases horigin : origin = key.origin
  · subst horigin
    cases hreport : body.report? key.requestId <;>
      simp [reportsBy, System.sentTo, MessageTarget.reaches, reportsIn, heardFrom, hreport]
  · simp [reportsBy, System.sentTo, MessageTarget.reaches, reportsIn, heardFrom, horigin,
      Ne.symm horigin]

/-- A message about a write of a key is one about this write if the keys are the same. -/
theorem reports_if {body : MessageBody} {report : Entrusting.Report TermId WriteOutcome}
    (hbody : body.report? key.requestId =
      if key'.requestId = key.requestId then some report else none) :
    (if key'.origin = key.origin then (body.report? key.requestId).toList
      else []) = if key' = key then [report] else [] := by
  obtain ⟨origin, requestId⟩ := key
  obtain ⟨origin', requestId'⟩ := key'
  rw [hbody]
  by_cases ho : origin' = origin <;> by_cases hr : requestId' = requestId <;> simp [ho, hr]

/-- A result of a write, as every write sees it. -/
theorem reportsBy_result (config : TabConfig) (key key' : WriteKey) (term : TermId)
    (outcome : WriteOutcome) : reportsBy config.clientId key
    [.send ⟨config.clientId, .client key'.origin, .writeResult key'.requestId outcome.isNone outcome
      (some term)⟩] =
      if key' = key then [.result term outcome] else [] := by
  rw [reportsBy_single]
  refine reports_if ?_
  cases outcome <;> rfl

/-- A request that is answered as it arrives is not at work: it has ended, or is turned back. -/
theorem job_of_heardAgain (hs : h.Sound config.clientId)
    (hwhy : h.accepted.isKnown key = false ∧ outcome = some (.plain .WRITE_QUEUE_FULL) ∨
    key ∉ h.accepted.inProgress ∧
      KeyedList.lookup FinishedWrite.key key h.accepted.finished = some ⟨key, outcome⟩) :
    (h.desk key).job = none ∧
      ((h.desk key).recorded = some outcome ∨ (h.desk key).recorded = none ∧
      writeRules.unbegun outcome) := by
  obtain ⟨hunknown, rfl⟩ | ⟨hnot, hlookup⟩ := hwhy
  · simp only [AcceptedWrites.isKnown, decide_eq_false_iff_not, not_or] at hunknown
    refine ⟨hs.job_desk_eq_none.mpr hunknown.1, Or.inr ⟨?_, rfl⟩⟩
    simpa [Holder.desk] using hunknown.2
  · refine ⟨hs.job_desk_eq_none.mpr hnot, Or.inl ?_⟩
    rw [Holder.desk, hlookup]
    rfl

/-- A tab begins a write of its own, which it has addressed to its own term. -/
def BeginsOwn (config : TabConfig) (key : WriteKey) (t t' : Tab) : Prop :=
  ∃ h job rest connection w, t.holder = some h ∧ h.waiting = job :: rest ∧ h.running = none ∧
    job.key = key ∧ key.origin = config.clientId ∧
    w ∈ t.writes ∧ w.requestId = key.requestId ∧ w.addressedTerm = some h.term ∧
    t' = (t.modifyWrite w.requestId fun w =>
        { w with startedTerm := w.startedTerm.or (some h.term) }).beginWrite
      { h with waiting := rest } job connection

/-! ### what one move does -/

section Moves

variable (hs : h.Sound config.clientId) (hat : v.desks config.clientId = some (h.desk key))
  (houtbox : t.outbox = [])
include hs hat houtbox

theorem serves_beginWrite (hrunning : h.running = some ⟨job, .answered true⟩)
    (connection : ConnectionId) :
    Steps writeRules v (served v config.clientId (t.beginWrite h job connection) key) := by
  have hsteps := Holder.begins_steps hs hat hrunning connection
  have hbox : (t.beginWrite h job connection).outbox = [.began job.key h.term] := by
    show t.outbox ++ [_] = _
    rw [houtbox]
    rfl
  rw [served_of_holder rfl, hbox]
  by_cases hkey : job.key = key
  · simpa [Action.begunTerm?, Action.part?, reportsBy, System.sentTo, reportsIn,
      heardFrom, hkey] using hsteps
  · simpa [Action.begunTerm?, Action.part?, reportsBy, System.sentTo, reportsIn,
      heardFrom, hkey] using hsteps

theorem serves_chunkTaken {connection : ConnectionId} {offset bytes : Nat}
    (hrunning : h.running = some ⟨job, .writing connection offset⟩)
    (hbytes : bytes ≤ job.payload.length - offset) :
    Steps writeRules v
    (served v config.clientId ((t.act (.chunkTaken job.key h.term offset bytes)).setHolder
      (h.chunkTaken job connection offset bytes)) key) := by
  have hsteps := Holder.takesChunk_steps hs hat hrunning hbytes
  have hbox : ((t.act (.chunkTaken job.key h.term offset bytes)).setHolder
      (h.chunkTaken job connection offset bytes)).outbox = [.chunkTaken job.key h.term
        offset bytes] := by
    show t.outbox ++ [_] = _
    rw [houtbox]
    rfl
  rw [served_of_holder rfl, hbox]
  by_cases hkey : job.key = key
  · simpa [Action.begunTerm?, Action.part?, reportsBy, System.sentTo, reportsIn,
      heardFrom, hkey] using hsteps
  · simpa [Action.begunTerm?, Action.part?, reportsBy, System.sentTo, reportsIn,
      heardFrom, hkey] using hsteps

theorem serves_ask (hwaiting : h.waiting = job :: rest) (hrunning : h.running = none) :
    Steps writeRules v (served v config.clientId ((t.setHolder { h with
        waiting := rest
        running := some ⟨job, .asking h.nextQuestion⟩
        awaited := KeyedList.put AwaitedApproval.key ⟨job.key, h.nextQuestion⟩ h.awaited
        nextQuestion := h.nextQuestion + 1 }).send config (.client job.key.origin)
      (.writeReady job.key.requestId h.term h.nextQuestion)) key) := by
  have hbox : ∀ h' : Holder, ((t.setHolder h').send config (.client job.key.origin)
      (.writeReady job.key.requestId h.term h.nextQuestion)).outbox =
        [.send ⟨config.clientId, .client job.key.origin,
          .writeReady job.key.requestId h.term h.nextQuestion⟩] := by
    intro h'
    show t.outbox ++ [_] = _
    rw [houtbox]
    rfl
  have hposted : (if job.key.origin = key.origin then
        ((MessageBody.writeReady job.key.requestId h.term h.nextQuestion).report?
          key.requestId).toList else []) =
      if job.key = key then [.question h.term h.nextQuestion] else [] := reports_if rfl
  rw [served_of_holder rfl, hbox, reportsBy_single, hposted]
  exact Holder.asks_steps hs hat hwaiting hrunning _

/-- The result of another tab's write is posted, and then the job leaves. -/
theorem serves_answerPeer {ended : EndedJob} (hended : ended ∈ h.ended)
    (hforgets : (KeyedList.lookup FinishedWrite.key key h.accepted.finished).isSome = true →
      KeyedList.lookup FinishedWrite.key key
      (h.accepted.finish ended.job.key ended.outcome).finished = none →
      v.pending = none ∧ v.task ≠ none) :
    Steps writeRules v (served v config.clientId (t.finishedForPeer config { h with
      ended := h.ended.filter fun e => e.job.id ≠ ended.job.id
      accepted := h.accepted.finish ended.job.key ended.outcome } ended.job.key
        ended.outcome) key) := by
  rw [served_of_holder rfl,
    show (t.finishedForPeer config _ ended.job.key ended.outcome).outbox = t.outbox ++ [_]
    from rfl, houtbox,
    List.nil_append, reportsBy_result config key ended.job.key h.term ended.outcome]
  by_cases hkey : ended.job.key = key
  · subst hkey
    rw [if_pos rfl]
    have hposts := Holder.posts_steps hat
      (Or.inl ⟨ended.job.payload, Holder.job_desk_of_ended hs hended⟩)
    have hleft := Holder.leaves_steps
        (v := v.serve config.clientId (h.desk ended.job.key) [.result h.term ended.outcome] [] [])
      hs (by simp [Entrusting.State.serve, Entrusting.State.setDesk]) hended (fun hne =>
        absurd rfl hne)
      (KeyedList.erase AwaitedApproval.key ended.job.key h.awaited)
    rw [Entrusting.State.serve_serve] at hleft
    exact hposts.trans hleft
  · rw [if_neg hkey]
    exact Holder.leaves_steps hs hat hended (fun _ => hforgets)
      (KeyedList.erase AwaitedApproval.key ended.job.key h.awaited)

/-- A request that is answered as it arrives changes nothing at the port. -/
theorem serves_finishedForPeer
    (hwhy : h.accepted.isKnown key' = false ∧ outcome = some (.plain .WRITE_QUEUE_FULL) ∨
      key' ∉ h.accepted.inProgress ∧
        KeyedList.lookup FinishedWrite.key key' h.accepted.finished = some ⟨key', outcome⟩) :
    Steps writeRules v
    (served v config.clientId (t.finishedForPeer config h key' outcome) key) := by
  rw [served_of_holder rfl,
    show (t.finishedForPeer config h key' outcome).outbox = t.outbox ++ [_] from rfl,
    houtbox, List.nil_append, reportsBy_result config key key' h.term outcome]
  have hdesk : ∀ awaited, ({ h with awaited } : Holder).desk key = h.desk key := fun _ => rfl
  rw [hdesk]
  by_cases hkey : key' = key
  · subst hkey
    rw [if_pos rfl]
    exact Holder.posts_steps hat (Or.inr (job_of_heardAgain hs hwhy))
  · rw [if_neg hkey]
    exact Holder.steps_same hat rfl

omit houtbox in
/-- A port that gives up answers its own question. -/
theorem serves_stop : Steps writeRules v (v.serve config.clientId (h.stop.desk key) [] [] []) := by
  cases hrunning : h.running with
  | none =>
    refine Holder.steps_same hat ?_
    simp [Holder.stop, Holder.desk, Holder.entries, Holder.runningEntries, hrunning]
  | some running =>
    obtain ⟨job, stage⟩ := running
    cases stage with
    | asking question =>
      have hstop : h.stop =
          { h with
            stage := .stopping
            connection := none
            running := some ⟨job, .answered false⟩ } := by
        simp [Holder.stop, hrunning]
      rw [hstop]
      exact Holder.givesUpAsking_steps hs hat hrunning .stopping none
    | answered | writing | stalled =>
      refine Holder.steps_same hat ?_
      simp [Holder.stop, Holder.desk, Holder.entries, Holder.runningEntries, hrunning]

end Moves

/-- A goodbye is about no write. -/
theorem isSilent_goodbye (houtbox : t.outbox = []) (h : Holder) (term : TermId) :
    IsSilent key (((t.setHolder h).act (.requestGoodbye term)).send config .all
      (.ownerReleased term)).stopElection.outbox :=
  isSilent_stopElection (isSilent_act (isSilent_act (houtbox ▸ System.isSilent_nil)
    fun deed hdeed =>
      List.mem_singleton.mp hdeed ▸ ⟨rfl, rfl, fun _ heq => by cases heq⟩) (isSilent_send rfl))

/-- **What a tab does at its port is a sequence of steps of every write**, but for the beginning of
one of its own. -/
theorem Move.serves (hm : Move config discipline t t') (key : WriteKey) (v : WriteState)
    (houtbox : t.outbox = [])
    (hports : ∀ h, t.holder = some h → h.Sound config.clientId)
    (hforeign : ∀ message ∈ t.applying, message.sender ≠ config.clientId)
    (htakes : ∀ holder message, discipline.takes holder message →
      answersAsked holder message = true)
    (hforgets : discipline.forgets key → v.pending = none ∧ v.task ≠ none)
    (hdesk : v.desks config.clientId = t.holder.map fun h => h.desk key)
    (hletters : ∀ letter ∈ lettersIn key t.applying, letter ∈ v.letters config.clientId)
    (htask : key.origin = config.clientId → ∀ w ∈ t.writes, w.requestId = key.requestId →
      v.task = some w.payload) :
    Steps writeRules v (served v config.clientId t' key) ∨ BeginsOwn config key t t' := by
  have hsender : ∀ message, .send message ∈ t'.outbox → message.sender = config.clientId :=
      fun message hmem =>
    (hm.sends houtbox hforeign hmem).1
  have hempty : ∀ {t₀ : Tab}, t₀.outbox = [] → IsSilent key t₀.outbox :=
    fun hnone => hnone ▸ System.isSilent_nil
  have hquiet : t'.holder = t.holder → IsSilent key t'.outbox →
      Steps writeRules v (served v config.clientId t' key) ∨ BeginsOwn config key t t' :=
        fun hholder hsilent =>
    Or.inl ((served_silent (hholder ▸ hdesk) hsilent hsender).symm ▸ .refl)
  have hserves : ∀ {h' : Holder}, t'.holder = some h' → IsSilent key t'.outbox →
      Steps writeRules v (v.serve config.clientId (h'.desk key) [] [] []) →
      Steps writeRules v (served v config.clientId t' key) ∨ BeginsOwn config key t t' :=
        fun hholder' hsilent hsteps => by
    obtain ⟨hreports, hbegun, hparts⟩ := hsilent.lists hsender
    rw [served_of_holder hholder', hreports, hbegun, hparts]
    exact Or.inl hsteps
  have hat : ∀ {h : Holder}, t.holder = some h → v.desks config.clientId = some (h.desk key) :=
      fun hholder => by
    rw [hdesk, hholder]
    rfl
  have hsame : ∀ {h h' : Holder}, t.holder = some h → t'.holder = some h' → IsSilent key t'.outbox →
      h'.desk key = h.desk key → Steps writeRules v (served v config.clientId t' key) ∨
        BeginsOwn config key t t' :=
    fun hholder hholder' hsilent heq =>
      hserves hholder' hsilent (Holder.steps_same (hat hholder) heq)
  have hheard : ∀ {message : ProtocolMessage} {t₀ : Tab}
      {letter : Entrusting.Letter TermId Payload},
      t.Hears message t₀ → message.body.isOfWrite = true → message.sender = key.origin →
      message.body.letter? key.requestId = some letter → letter ∈ v.letters config.clientId :=
    fun hears hwrite horigin hletter =>
      hletters _ (mem_lettersIn (hears.applying hwrite ▸ List.mem_cons_self) horigin hletter)
  cases hm with
  | rest _ deeds hrest =>
    refine hquiet hrest.holder (isSilent_of_all fun deed hdeed => Or.inl ?_)
    rw [hrest.outbox, houtbox, List.nil_append] at hdeed
    exact (hrest.plain deed hdeed).1
  | requests => exact hquiet (startElection_holder t) (isSilent_startElection houtbox)
  | stops => exact hquiet (stopElection_same t).2.2.2.2.1 (isSilent_stopElection (hempty houtbox))
  | withdraws stack hstack =>
    exact hquiet (stopElection_same _).2.2.2.2.1 (isSilent_stopElection (hempty houtbox))
  | issues => exact hquiet rfl (hempty houtbox)
  | settles w hw outcome => exact hquiet (settle_same _ _ _).1 (isSilent_settle houtbox _ _)
  | marks => exact hquiet rfl (hempty houtbox)
  | asks w hw term => exact hquiet rfl (isSilent_act (hempty houtbox) (isSilent_send rfl))
  | admits w hw h hserving accepted hnew =>
    obtain ⟨hholder, hstage⟩ := holder_of_serving hserving
    refine hserves rfl (hempty houtbox)
      (Holder.admits_steps (hports h hholder) hstage (hat hholder) hnew fun hkey => Or.inl ?_)
    exact htask (congrArg WriteKey.origin hkey).symm w hw (congrArg WriteKey.requestId hkey)
  | recalls w => exact hquiet (settle_same _ _ _).1 (isSilent_settle houtbox _ _)
  | hearsRequest message t₀ hears requestId payload h hbody hserving accepted hnew =>
    obtain ⟨hholder, hstage⟩ := holder_of_serving hserving
    refine hserves rfl (hempty (hears.same.2.1.trans houtbox))
      (Holder.admits_steps (hports h hholder) hstage (hat hholder) hnew fun hkey => Or.inr ?_)
    subst hkey
    exact hheard hears (by rw [hbody]; rfl) rfl (by simp [MessageBody.letter?, hbody])
  | hearsReady message t₀ hears requestId term question hbody =>
    have hnone : (t₀.approve requestId term).1.outbox = [] :=
      ((approve_deeds t₀ requestId term).1.trans hears.same.2.1).trans houtbox
    exact hquiet ((approve_same t₀ requestId term).1.trans hears.same.1)
      (isSilent_act (hempty hnone) (isSilent_send rfl))
  | hearsUnconnected message t₀ hears =>
    exact hquiet hears.same.1 (hempty (hears.same.2.1.trans houtbox))
  | hearsResult message t₀ hears =>
    exact hquiet ((settle_same _ _ _).1.trans hears.same.1)
      (isSilent_settle (hears.same.2.1.trans houtbox) _ _)
  | connects h hholder => exact hsame hholder rfl (hempty houtbox) rfl
  | endsFirst h hholder job rest hwaiting hrunning outcome hunbegun =>
    exact hserves rfl (hempty houtbox)
      (Holder.endsFirst_steps (hports h hholder) (hat hholder) hwaiting hrunning hunbegun)
  | expiresAsked h hholder job question hrunning =>
    exact hserves rfl (hempty houtbox) (Holder.givesUpAsking_steps (hports h hholder) (hat hholder)
      hrunning _ _)
  | turnsBack h hholder job isApproved hrunning outcome hunbegun =>
    exact hserves rfl (hempty houtbox) (Holder.turnsBack_steps (hports h hholder) (hat hholder)
      hrunning hunbegun)
  | failsChunk h hholder job connection offset hrunning outcome hbegun hfailed running' hrunning' =>
    exact hserves rfl (hempty houtbox)
      (Holder.fails_steps (hports h hholder) (hat hholder) hrunning hbegun hfailed hrunning')
  | endsStall h hholder job connection hrunning =>
    refine hsame hholder rfl (hempty houtbox) ?_
    simp [Holder.desk, Holder.entries, Holder.runningEntries, hrunning]
  | expiresQueued h hholder job hjob =>
    exact hserves rfl (hempty houtbox)
      (Holder.expiresQueued_steps (hports h hholder) (hat hholder) hjob rfl)
  | tearsDown h hholder => exact hsame hholder rfl (hempty houtbox) rfl
  | beginsOwn h hholder job rest hwaiting hrunning horigin connection hconnection w hw hid hterm =>
    by_cases hkey : job.key = key
    · exact Or.inr ⟨h, job, rest, connection, w, hholder, hwaiting, hrunning, hkey, hkey ▸ horigin,
        hw, hkey ▸ hid,
        hterm, rfl⟩
    · have hmoved := Holder.moved_beginFirst (hports h hholder) hwaiting hrunning connection
      refine hsame hholder rfl (isSilent_act (hempty houtbox) fun deed hdeed => ?_)
        ((hmoved.desk key).resolve_left fun heq => hkey heq.1).2
      rw [List.mem_singleton.mp hdeed]
      exact ⟨if_neg hkey, rfl, fun _ heq => by cases heq⟩
  | begins h hholder job hrunning connection hconnection =>
    exact Or.inl (serves_beginWrite (hports h hholder) (hat hholder) houtbox hrunning connection)
  | takesChunk h hholder job connection offset hrunning =>
    exact Or.inl (serves_chunkTaken (hports h hholder) (hat hholder) houtbox hrunning
      (Nat.min_le_right _ _))
  | givesUp h hserving =>
    obtain ⟨hholder, -⟩ := holder_of_serving hserving
    exact hserves rfl (hempty houtbox) (serves_stop (hports h hholder) (hat hholder))
  | saysGoodbye h hholder deadline hstage hanswered =>
    exact hsame hholder (stopElection_same _).2.2.2.2.1 (isSilent_goodbye houtbox _ h.term) rfl
  | asksToBegin h hholder job rest hwaiting hrunning horigin connection hconnection =>
    exact Or.inl (serves_ask (hports h hholder) (hat hholder) houtbox hwaiting hrunning)
  | answersPeer h hholder ended hended hallows horigin =>
    exact Or.inl (serves_answerPeer (hports h hholder) (hat hholder) houtbox hended
      fun hsome hnone => hforgets (hallows key hsome hnone))
  | answersOwn h hholder ended hended hallows horigin _ ht' =>
    subst ht'
    exact hserves rfl (hempty houtbox) (Holder.leaves_steps (hports h hholder) (hat hholder) hended
      (fun _ hsome hnone => hforgets (hallows key hsome hnone)) h.awaited)
  | handsBackOwn h hholder ended hended hallows horigin w =>
    exact hserves rfl (hempty houtbox) (Holder.leaves_steps (hports h hholder) (hat hholder) hended
      (fun _ hsome hnone => hforgets (hallows key hsome hnone)) h.awaited)
  | settlesOwn h hholder ended hended hallows horigin w =>
    exact hserves (settle_same _ _ _).1 (isSilent_settle (t := t.setHolder _) houtbox _ _)
        (Holder.leaves_steps (hports h hholder)
      (hat hholder) hended (fun _ hsome hnone => hforgets (hallows key hsome hnone)) h.awaited)
  | hearsAgain message t₀ hears requestId payload h hbody hserving outcome hwhy =>
    obtain ⟨hholder, hstage⟩ := holder_of_serving hserving
    exact Or.inl (serves_finishedForPeer (hports h hholder) (hat hholder)
      (hears.same.2.1.trans houtbox) hwhy)
  | hearsApproval message t₀ hears requestId term approved question hbody htaken =>
    have hports₀ : ∀ h, t₀.holder = some h → h.Sound config.clientId := hears.same.1.symm ▸ hports
    have hbox : (t₀.takeApproval ⟨message.sender, requestId⟩ term approved).outbox = [] :=
      ((takeApproval_deeds t₀ _ _ _).1.trans hears.same.2.1).trans houtbox
    obtain heq | ⟨h, hserving, hterm, ⟨job, asked, hrunning, hkey, heq⟩ | ⟨-, heq⟩⟩ :=
      takeApproval_cases hports₀ ⟨message.sender, requestId⟩ term approved
    · exact hquiet ((congrArg Tab.holder heq).trans hears.same.1) (hempty hbox)
    · obtain ⟨hholder, -⟩ := holder_of_serving (hears.same.2.2.symm.trans hserving)
      refine hserves (congrArg Tab.holder heq) (hempty hbox) ?_
      refine Holder.takesAnswer_steps (hports h hholder) (hat hholder) hrunning
        fun hown happroved => ?_
      subst happroved
      subst hterm
      have hasked : question = asked := by
        have hanswers := htakes _ _ htaken
        simpa [answersAsked, hbody, hholder, hrunning, hkey] using hanswers
      subst hasked
      have hsender : message.sender = key.origin := by rw [← hown, hkey]
      exact hheard hears (by rw [hbody]; rfl) hsender
        (by simp [MessageBody.letter?, hbody, ← hown, hkey])
    · obtain ⟨hholder, -⟩ := holder_of_serving (hears.same.2.2.symm.trans hserving)
      exact hsame hholder (congrArg Tab.holder heq) (hempty hbox) rfl

end Tab

end SerialBroker
