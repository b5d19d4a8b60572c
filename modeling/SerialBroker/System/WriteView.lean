import SerialBroker.Owner.PortDesk
import SerialBroker.System.SingleOwner

/-!
# One write among all the tabs

What the tabs, the bus and the record hold of one write, as a task in the sense of `Entrusting`. Its
issuer is the tab that called `send()`, the servers are the ports, and what is on its way are the
messages about it, in the channels or in the rest of a turn. Whatever happens at a port is a step of
every write.
-/

namespace SerialBroker

open Entrusting (Report Letter Marks)

/-- What a tab keeps of a write it waits on. -/
def PendingWrite.marks (w : PendingWrite) : Marks TermId := ⟨w.startedTerm, w.addressedTerm⟩

/-- What a message says of a request to the tab that issued it. -/
def MessageBody.report? (requestId : RequestId) : MessageBody → Option (Report TermId WriteOutcome)
  | .writeReady id term question => if id = requestId then some (.question term question) else none
  | .writeResult id ok reason (some term) =>
    if id = requestId then some (.result term (if ok then none else reason)) else none
  | _ => none

/-- What a message says of a request of its sender's to a port. -/
def MessageBody.letter? (requestId : RequestId) : MessageBody → Option (Letter TermId Payload)
  | .writeRequest id payload _ => if id = requestId then some (.offer payload) else none
  | .writeApproval id term approved question =>
    if id = requestId then some (.answer term question approved) else none
  | _ => none

def Action.begunTerm? (key : WriteKey) : Action → Option TermId
  | .began key' term => if key' = key then some term else none
  | _ => none

def Action.part? (key : WriteKey) : Action → Option (Entrusting.Part TermId)
  | .chunkTaken key' term offset bytes => if key' = key then some ⟨term, offset, bytes⟩ else none
  | _ => none

def Action.outcome? (requestId : RequestId) : Action → Option WriteOutcome
  | .settled id outcome => if id = requestId then some outcome else none
  | _ => none

/-- The messages of one sender. -/
def heardFrom (sender : ClientId) (messages : List ProtocolMessage) : List ProtocolMessage :=
  messages.filter fun message => message.sender = sender

def reportsIn (sender : ClientId) (requestId : RequestId) (messages : List ProtocolMessage) :
    List (Report TermId WriteOutcome) :=
  (heardFrom sender messages).filterMap fun message => message.body.report? requestId

def lettersIn (key : WriteKey) (messages : List ProtocolMessage) : List (Letter TermId Payload) :=
  (heardFrom key.origin messages).filterMap fun message => message.body.letter? key.requestId

/-- The state of an entrusted write. -/
abbrev WriteState := Entrusting.State ClientId TermId Payload WriteOutcome

namespace System

/-- What there is of a write. -/
def view (s : System) (key : WriteKey) : WriteState where
  task := (s.tabs key.origin).issued[key.requestId]?
  pending :=
    if s.isCrashed key.origin then none
    else ((s.tabs key.origin).pending? key.requestId).map PendingWrite.marks
  desks tab := (s.tabs tab).holder.map fun h => h.desk key
  reports tab := reportsIn tab key.requestId ((s.tabs key.origin).applying ++
    s.channel tab key.origin)
  letters tab := lettersIn key ((s.tabs tab).applying ++ s.channel key.origin tab)
  begun := s.log.filterMap fun e => e.2.begunTerm? key
  parts := s.log.filterMap fun e => e.2.part? key
  settled := s.log.filterMap fun e => if e.1 = key.origin then e.2.outcome? key.requestId else none

end System

theorem reportsIn_append (sender : ClientId) (requestId : RequestId) (l l' : List ProtocolMessage) :
    reportsIn sender requestId
    (l ++ l') = reportsIn sender requestId l ++ reportsIn sender requestId l' := by
  simp [reportsIn, heardFrom]

theorem lettersIn_append (key : WriteKey) (l l' : List ProtocolMessage) :
    lettersIn key (l ++ l') = lettersIn key l ++ lettersIn key l' := by
  simp [lettersIn, heardFrom]

theorem reportsIn_sublist {sender : ClientId} {requestId : RequestId} {l l' : List ProtocolMessage}
    (h : l.Sublist l') :
    (reportsIn sender requestId l).Sublist (reportsIn sender requestId l') :=
    (h.filter _).filterMap _

theorem lettersIn_sublist {key : WriteKey} {l l' : List ProtocolMessage} (h : l.Sublist l') :
    (lettersIn key l).Sublist (lettersIn key l') :=
  (h.filter _).filterMap _

theorem mem_lettersIn {key : WriteKey} {l : List ProtocolMessage} {letter : Letter TermId Payload}
    {message : ProtocolMessage}
    (hmem : message ∈ l) (hsender : message.sender = key.origin)
    (hletter : message.body.letter? key.requestId = some letter) :
    letter ∈ lettersIn key l :=
  List.mem_filterMap.mpr ⟨message, List.mem_filter.mpr ⟨hmem, decide_eq_true hsender⟩, hletter⟩

namespace System

variable {settings : ClientId → TabSettings} {s : System} {tab : ClientId} {t t' : Tab}
  {key : WriteKey} {deeds : List Action}

/-- What a tab that serves the write reports of it by these deeds. -/
def reportsBy (tab : ClientId) (key : WriteKey) (deeds : List Action) :
    List (Report TermId WriteOutcome) :=
  reportsIn tab key.requestId (sentTo tab key.origin deeds)

/-- What the issuer of the write sends to a tab by these deeds. -/
def lettersBy (key : WriteKey) (receiver : ClientId) (deeds : List Action) :
    List (Letter TermId Payload) :=
  lettersIn key (sentTo key.origin receiver deeds)

/-- What a tab has done to a write at its port, on top of what was. -/
def served (v : WriteState) (tab : ClientId) (t' : Tab) (key : WriteKey) : WriteState :=
  { v with
    desks := Function.update v.desks tab (t'.holder.map fun h => h.desk key)
    reports := Function.update v.reports tab (v.reports tab ++ reportsBy tab key t'.outbox)
    begun := v.begun ++ t'.outbox.filterMap fun deed => deed.begunTerm? key
    parts := v.parts ++ t'.outbox.filterMap fun deed => deed.part? key }

/-- What a tab other than the issuer changes of a write. -/
theorem view_setTab_peer (hne : tab ≠ key.origin)
    (hsender : ∀ message, .send message ∈ t'.outbox → message.sender = tab) :
    (s.setTab settings tab t').view key = { served (s.view key) tab t' key with
      letters := Function.update (s.view key).letters tab
        (lettersIn key (t'.applying ++ s.channel key.origin tab)) } := by
  obtain ⟨htabs, hcrashed, -, hlog, -⟩ := setTab_same settings s tab t'
  have hother : (s.setTab settings tab t').tabs key.origin = s.tabs key.origin := by
    rw [htabs, Function.update_of_ne (Ne.symm hne)]
  refine Entrusting.State.ext ?_ ?_ (funext fun other => ?_) (funext fun other => ?_)
    (funext fun other => ?_) ?_ ?_ ?_
  · exact congrArg (fun t : Tab => t.issued[key.requestId]?) hother
  · simp only [view, served, hother, hcrashed]
  · simp only [view, served, htabs, Function.update_apply]
    split <;> rfl
  · simp only [view, served, hother, setTab_channel s tab t' hsender, Function.update_apply]
    split
    · next heq => rw [heq, reportsBy, ← reportsIn_append, List.append_assoc]
    · rfl
  · simp only [view, htabs, setTab_channel s tab t' hsender, if_neg (Ne.symm hne),
      Function.update_apply]
    split
    · next heq => rw [heq]; rfl
    · rfl
  · simp only [view, served, hlog, List.filterMap_append, List.filterMap_map]
    rfl
  · simp only [view, served, hlog, List.filterMap_append, List.filterMap_map]
    rfl
  · simp [view, served, hlog, hne]

/-- What the issuer of the write has done to it, on top of what was. -/
def handled (s : System) (v : WriteState) (t' : Tab) (key : WriteKey) : WriteState :=
  { served v key.origin t' key with
    task := t'.issued[key.requestId]?
    pending := (t'.pending? key.requestId).map PendingWrite.marks
    reports := fun other =>
      reportsIn other key.requestId (t'.applying ++ s.channel other key.origin)
    letters := fun other => v.letters other ++ lettersBy key other t'.outbox
    settled := v.settled ++ t'.outbox.filterMap fun deed => deed.outcome? key.requestId }

theorem sentTo_self (hnot : ∀ message, .send message ∈ deeds → message.target ≠ .client tab) :
    sentTo tab tab deeds = [] := by
  refine List.eq_nil_iff_forall_not_mem.mpr fun message hmem => ?_
  obtain ⟨hsent, hreaches⟩ := mem_sentTo hmem
  cases htarget : message.target with
  | all =>
    rw [htarget] at hreaches
    simp [MessageTarget.reaches] at hreaches
  | client id =>
    rw [htarget] at hreaches
    exact hnot message hsent (by rw [htarget, of_decide_eq_true hreaches])

/-- A tab hears nothing of its own. -/
theorem Grounded.letters_own (hs : s.Grounded) :
    lettersIn key ((s.tabs key.origin).applying ++ s.channel key.origin key.origin) = [] := by
  refine List.filterMap_eq_nil_iff.mpr fun message hmem => ?_
  obtain ⟨hmem, hsender⟩ := List.mem_filter.mp hmem
  obtain hmem | hmem := List.mem_append.mp hmem
  · exact absurd (of_decide_eq_true hsender) (hs.applying key.origin message hmem)
  · exact absurd rfl (hs.channel key.origin key.origin message hmem).2

theorem Grounded.reports_own (hs : s.Grounded) : (s.view key).reports key.origin = [] := by
  refine List.filterMap_eq_nil_iff.mpr fun message hmem => ?_
  obtain ⟨hmem, hsender⟩ := List.mem_filter.mp hmem
  obtain hmem | hmem := List.mem_append.mp hmem
  · exact absurd (of_decide_eq_true hsender) (hs.applying key.origin message hmem)
  · exact absurd rfl (hs.channel key.origin key.origin message hmem).2

/-- What the issuer changes of a write. -/
theorem view_setTab_issuer (hs : s.Grounded) (hlive : s.isCrashed key.origin = false)
    (hsent : ∀ message, .send message ∈ t'.outbox →
      message.sender = key.origin ∧ message.target ≠ .client key.origin)
    (happlying : t'.applying.Sublist (s.tabs key.origin).applying) :
    (s.setTab settings key.origin t').view key = handled s (s.view key) t' key := by
  obtain ⟨htabs, hcrashed, -, hlog, -⟩ := setTab_same settings s key.origin t'
  have hsender : ∀ message, .send message ∈ t'.outbox → message.sender = key.origin :=
    fun message hmem => (hsent message hmem).1
  have hself : (s.setTab settings key.origin t').tabs key.origin = { t' with outbox := [] } := by
    rw [htabs, Function.update_self]
  have hnone : sentTo key.origin key.origin t'.outbox = [] :=
    sentTo_self fun message hmem => (hsent message hmem).2
  refine Entrusting.State.ext ?_ ?_ (funext fun other => ?_) (funext fun other => ?_)
    (funext fun other => ?_) ?_ ?_ ?_
  · simp only [view, handled, hself]
  · simp only [view, handled, hself, hcrashed, hlive, Bool.false_eq_true, if_false]
    rfl
  · simp only [view, handled, served, htabs, Function.update_apply]
    split <;> rfl
  · simp only [view, handled, hself, setTab_channel s key.origin t' hsender]
    split
    · next heq =>
      rw [heq, hnone, List.append_nil]
      rfl
    · rfl
  · simp only [view, handled, htabs, setTab_channel s key.origin t' hsender, if_true,
      Function.update_apply]
    split
    · next heq =>
      subst heq
      have hbefore : lettersIn key ((s.tabs key.origin).applying ++ s.channel key.origin key.origin)
        = [] := hs.letters_own
      rw [lettersBy, hnone, hbefore, List.append_nil]
      refine List.sublist_nil.mp ?_
      rw [← hbefore]
      exact lettersIn_sublist (happlying.append_right _)
    · rw [lettersBy, ← lettersIn_append, List.append_assoc]
  · simp only [view, handled, served, hlog, List.filterMap_append, List.filterMap_map]
    rfl
  · simp only [view, handled, served, hlog, List.filterMap_append, List.filterMap_map]
    rfl
  · simp only [view, handled, hlog, List.filterMap_append, List.filterMap_map]
    simp

/-! ### what a port does to a write -/

theorem served_of_holder {v : WriteState} {h : Holder} (hholder : t'.holder = some h) :
    served v tab t' key =
    v.serve tab (h.desk key) (reportsBy tab key t'.outbox)
    (t'.outbox.filterMap fun deed => deed.begunTerm? key)
      (t'.outbox.filterMap fun deed => deed.part? key) := by
  simp [served, Entrusting.State.serve, Entrusting.State.setDesk, hholder]

/-- What says and does nothing about the write. -/
def IsSilent (key : WriteKey) (deeds : List Action) : Prop :=
  ∀ deed ∈ deeds, deed.begunTerm? key = none ∧ deed.part? key = none ∧
    ∀ message, deed = .send message → message.target.reaches message.sender key.origin = true →
      message.body.report? key.requestId = none

theorem IsSilent.lists (hsilent : IsSilent key deeds)
    (hsender : ∀ message, .send message ∈ deeds → message.sender = tab) :
    reportsBy tab key deeds = [] ∧ (deeds.filterMap fun deed => deed.begunTerm? key) = [] ∧
      (deeds.filterMap fun deed => deed.part? key) = [] := by
  refine ⟨List.filterMap_eq_nil_iff.mpr fun message hmem => ?_, List.filterMap_eq_nil_iff.mpr
    fun deed hmem => (hsilent deed hmem).1,
    List.filterMap_eq_nil_iff.mpr fun deed hmem => (hsilent deed hmem).2.1⟩
  obtain ⟨hsent, hreaches⟩ := mem_sentTo (List.mem_filter.mp hmem).1
  exact (hsilent _ hsent).2.2 message rfl (by rw [hsender message hsent]; exact hreaches)

theorem isSilent_nil : IsSilent key [] := fun _ h => absurd h List.not_mem_nil

theorem served_silent {v : WriteState} (hdesk : v.desks tab = t'.holder.map fun h => h.desk key)
    (hsilent : IsSilent key t'.outbox)
    (hsender : ∀ message, .send message ∈ t'.outbox → message.sender = tab) :
    served v tab t' key = v := by
  obtain ⟨hreports, hbegun, hparts⟩ := hsilent.lists hsender
  simp [served, hreports, hbegun, hparts, ← hdesk]

end System

end SerialBroker
