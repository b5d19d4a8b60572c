import SerialBroker.Client.TabMoves

/-!
# A turn is a sequence of moves

Whatever reaches a tab, a call of the application, a message, an answer of the lock manager, an
event at its port or the next part of a turn, changes it by a sequence of moves.
-/

namespace SerialBroker

namespace Tab

variable {t t' t'' t₀ : Tab} {config : TabConfig} {discipline : Discipline} {requestId : RequestId}
  {term : TermId} {h h' : Holder} {key : WriteKey}
  {outcome : WriteOutcome} {action : Action} {payload : Payload} {message : ProtocolMessage}
  {job : Job} {frame : TurnFrame}
  {stack : List TurnFrame} {effect : TermEffect} {effects : List TermEffect}

/-! ### the writes this tab has issued -/

theorem Rest.makesMoves {deeds : List Action} (h : Rest config [] t t' deeds) :
    MakesMoves config discipline t t' := Relation.ReflTransGen.single (.rest t' deeds h)

/-- A rejection that may come at any time. -/
theorem settle_makesMoves (hrejected : outcome ≠ none)
    (hstarted : ∀ w ∈ t.writes, w.requestId = requestId → outcome.isUnbegun = true →
    w.startedTerm = none) :
    MakesMoves config discipline t (t.settle requestId outcome) := by
  cases hpending : t.pending? requestId with
  | none =>
    have hsame : t.settle requestId outcome = t := by rw [settle, hpending]
    rw [hsame]
  | some w =>
    obtain ⟨hw, rfl⟩ := mem_of_pending hpending
    exact (Move.settles w hw outcome hrejected (hstarted w hw rfl)).makesMoves

theorem settleAll_makesMoves {requestIds : List RequestId} (hrejected : outcome ≠ none)
    (hbegun : outcome.isUnbegun = false) :
    MakesMoves config discipline t (t.settleAll requestIds outcome) := by
  unfold settleAll
  induction requestIds generalizing t with
  | nil => exact .refl
  | cons requestId requestIds ih =>
    refine Relation.ReflTransGen.trans (settle_makesMoves hrejected fun _ _ _ hunbegun => ?_) ih
    rw [hbegun] at hunbegun
    cases hunbegun

theorem failAll_makesMoves {error : SerialBrokerError}
    (hbegun : WriteOutcome.isUnbegun (some error) = false) :
    MakesMoves config discipline t (t.failAll error) := settleAll_makesMoves (by simp) hbegun

/-- What a request that reaches the port comes to. -/
inductive Performed (config : TabConfig) (t : Tab) (h : Holder) (key : WriteKey)
    (payload : Payload) : Tab → Prop
  | ignored : Performed config t h key payload t
  | full (hunknown : h.accepted.isKnown key = false) :
      Performed config t h key payload
      (t.answerAtOnce config h key (some (.plain .WRITE_QUEUE_FULL)))
  | finished (outcome : WriteOutcome) (hnot : key ∉ h.accepted.inProgress)
      (hfinished : KeyedList.lookup FinishedWrite.key key h.accepted.finished = some ⟨key,
        outcome⟩) :
      Performed config t h key payload (t.answerAtOnce config h key outcome)
  | admitted (accepted : AcceptedWrites) (hnew : h.accepted.admitWrite key = (accepted, .new)) :
      Performed config t h key payload
      (t.setHolder (({ h with accepted } : Holder).enqueue key payload))

theorem performWrite_performed :
    Performed config t h key payload (t.performWrite config h key payload) := by
  unfold performWrite
  split
  · next hfull => exact .full hfull.1
  split
  · exact .ignored
  · next outcome hadmission =>
    unfold AcceptedWrites.admitWrite at hadmission
    split at hadmission
    · cases hadmission
    next hnot =>
    split at hadmission
    · next write hlookup =>
      obtain ⟨-, heq⟩ := Prod.mk.inj hadmission
      obtain rfl := Admission.finished.inj heq
      have hkey : write.key = key := KeyedList.key_of_lookup hlookup
      exact .finished write.outcome hnot (by rw [hlookup, ← hkey])
    · cases hadmission
  · next accepted hadmission => exact .admitted accepted hadmission

theorem dispatchWrite_makesMoves {w : PendingWrite} (hw : w ∈ t.writes)
    (hstarted : w.startedTerm = none) :
    MakesMoves config discipline t (t.dispatchWrite config w.requestId w.payload term) := by
  have hasks : MakesMoves config discipline t
    (t.send config .all (.writeRequest w.requestId w.payload term)) :=
    (Move.asks w hw term).makesMoves
  unfold dispatchWrite
  split
  · next h hserving =>
    split
    · have hperformed : Performed config t h ⟨config.clientId, w.requestId⟩ w.payload
          (t.performWrite config h ⟨config.clientId, w.requestId⟩ w.payload) :=
            performWrite_performed
      generalize t.performWrite config h ⟨config.clientId, w.requestId⟩ w.payload = t' at hperformed
      cases hperformed with
      | ignored => exact .refl
      | full hunknown =>
        rw [answerAtOnce, if_pos rfl]
        exact (Move.settles w hw _ (by simp) fun _ => hstarted).makesMoves
      | finished outcome hnot hfinished =>
        rw [answerAtOnce, if_pos rfl]
        exact (Move.recalls w hw hstarted h hserving outcome hfinished).makesMoves
      | admitted accepted hnew => exact (Move.admits w hw h hserving accepted hnew).makesMoves
    · exact hasks
  · exact hasks

theorem startedTerm_of_dispatchTerm {w : PendingWrite} (hterm : t.dispatchTerm? w = some term) :
    w.startedTerm = none := by
  unfold dispatchTerm? at hterm
  split at hterm
  · cases hterm
  · next hguard =>
    by_contra hstarted
    exact hguard (Or.inl hstarted)

theorem dispatch_makesMoves : MakesMoves config discipline t (t.dispatch config requestId) := by
  unfold dispatch
  split
  · exact .refl
  next w hpending =>
  split
  · exact .refl
  next term hterm =>
  obtain ⟨hw, rfl⟩ := mem_of_pending hpending
  have hstarted : w.startedTerm = none := startedTerm_of_dispatchTerm hterm
  have hmarks : Move config discipline t (t.modifyWrite w.requestId (handOn term)) := by
    refine .marks w.requestId (handOn term) (fun _ => ⟨rfl, rfl, rfl⟩) fun w' hw' => Or.inr ?_
    rw [hpending] at hw'
    obtain rfl := Option.some.inj hw'
    exact hstarted
  have hmem : handOn term w ∈ (t.modifyWrite w.requestId (handOn term)).writes :=
    mem_modifyWrite.mpr ⟨w, hw, (if_pos rfl).symm⟩
  have hwrites : MakesMoves config discipline (t.modifyWrite w.requestId (handOn term))
    ((t.modifyWrite w.requestId (handOn term)).dispatchWrite config
      (handOn term w).requestId (handOn term w).payload term) :=
        dispatchWrite_makesMoves hmem hstarted
  exact hmarks.makesMoves.trans hwrites

theorem dispatchAll_makesMoves {requestIds : List RequestId} :
    MakesMoves config discipline t (t.dispatchAll config requestIds) := by
  unfold dispatchAll
  induction requestIds generalizing t with
  | nil => exact .refl
  | cons requestId requestIds ih => exact dispatch_makesMoves.trans ih

theorem dispatchWaiting_makesMoves : MakesMoves config discipline t (t.dispatchWaiting config) :=
  dispatchAll_makesMoves

theorem undispatch_makesMoves : MakesMoves config discipline t (t.modifyWrite requestId fun w =>
      { w with isDispatched := false }) :=
  (Move.marks requestId (fun w => { w with isDispatched := false }) (fun _ => ⟨rfl, rfl, rfl⟩)
    fun _ _ => Or.inl rfl).makesMoves

theorem resend_makesMoves : MakesMoves config discipline t (t.resend config requestId) := by
  unfold resend
  split
  · exact .refl
  split
  · exact .refl
  split
  · exact undispatch_makesMoves.trans dispatch_makesMoves
  · split
    · exact undispatch_makesMoves.trans dispatch_makesMoves
    · exact .refl

theorem resendUnstarted_makesMoves : MakesMoves config discipline t (t.resendUnstarted config) := by
  unfold resendUnstarted
  generalize t.writes.map PendingWrite.requestId = requestIds
  induction requestIds generalizing t with
  | nil => exact .refl
  | cons requestId requestIds ih => exact resend_makesMoves.trans ih

theorem handleTermEnded_makesMoves :
    MakesMoves config discipline t (t.handleTermEnded config term) :=
  Relation.ReflTransGen.trans (settleAll_makesMoves (by simp) rfl) dispatchWaiting_makesMoves

theorem writeDeadline_makesMoves : MakesMoves config discipline t (t.writeDeadline requestId) := by
  unfold writeDeadline
  split
  · exact .refl
  next w hpending =>
  obtain ⟨hw, rfl⟩ := mem_of_pending hpending
  refine (Move.settles w hw _ (by simp) fun hunbegun => ?_).makesMoves
  by_contra hstarted
  rw [Option.isSome_iff_ne_none.mpr hstarted] at hunbegun
  cases hunbegun

theorem add_makesMoves : MakesMoves config discipline t (t.add config payload) :=
  (Move.issues payload).makesMoves.trans dispatch_makesMoves

theorem sendPayload_makesMoves : MakesMoves config discipline t (t.sendPayload config payload) := by
  unfold sendPayload
  split
  · exact .refl
  · exact add_makesMoves

/-! ### going on with a turn -/

/-- The next effect is taken off the turn. -/
theorem taken_rest (hstack : t.stack = .effects (effect :: effects) :: stack) :
    Rest config [] t { t with stack := .effects effects :: stack } [] where
  writes := rfl
  issued := rfl
  holder := rfl
  election := rfl
  composed h := h.withStack (by rw [hstack]; simp)
  applying := by
    have happlying : t.applying = (TurnFrame.effects (effect :: effects)).applying ++
        ({ t with stack } : Tab).applying := by
      rw [applying, hstack]
      simp [applying]
    rw [applying_cons, happlying, effects_applying, List.nil_append, List.append_assoc]
    exact List.sublist_append_right _ _
  outbox := (List.append_nil _).symm
  plain _ h := absurd h List.not_mem_nil

theorem mem_applying (hstack : t.stack = .effects (.apply message :: effects) :: stack)
    (hwrite : message.body.isOfWrite = true) :
    message ∈ t.applying := by
  refine List.mem_flatMap.mpr ⟨_, hstack ▸ List.mem_cons_self, ?_⟩
  rw [effects_applying]
  simp [TermEffect.ofWrite?, hwrite]

/-- A result is applied. -/
theorem handleResult_makesMoves (hears : t.Hears message t₀) {ok : Bool}
    {error : Option SerialBrokerError} {term : Option TermId}
    (hbody : message.body = .writeResult requestId ok error term)
    (hresult : outcome = if ok then none else error) :
    MakesMoves config discipline t (t₀.handleResult config requestId term outcome) := by
  have htaken : MakesMoves config discipline t t₀ := by
    obtain ⟨effects, stack, hstack, rfl⟩ := hears
    exact (taken_rest hstack).makesMoves
  have hwrites : t₀.writes = t.writes := by
    obtain ⟨effects, stack, hstack, rfl⟩ := hears
    rfl
  unfold handleResult
  split
  · exact htaken
  next w hpending =>
  obtain ⟨hw, rfl⟩ := mem_of_pending hpending
  rw [hwrites] at hw
  split
  · exact htaken
  next hterm =>
  rw [not_or, not_not] at hterm
  obtain ⟨hsome, hterm⟩ := hterm
  obtain ⟨term, rfl⟩ := Option.ne_none_iff_exists'.mp hsome
  split
  · next houtcome =>
    have hback : Move config discipline t (t₀.modifyWrite w.requestId handBack) :=
      .hearsUnconnected message t₀ hears w hw term hterm.symm ok error hbody outcome
        hresult houtcome
    exact hback.makesMoves.trans dispatch_makesMoves
  · exact (Move.hearsResult message t₀ hears w hw term hterm.symm ok error hbody outcome
      hresult).makesMoves

/-- A request of another tab is applied. -/
theorem performWriteForPeer_makesMoves (hears : t.Hears message t₀)
    (hforeign : message.sender ≠ config.clientId)
    (hbody : message.body = .writeRequest requestId payload term) :
    MakesMoves config discipline t
    (t₀.performWriteForPeer config ⟨message.sender, requestId⟩ payload term) := by
  have htaken : MakesMoves config discipline t t₀ := by
    obtain ⟨effects, stack, hstack, rfl⟩ := hears
    exact (taken_rest hstack).makesMoves
  have hsame : t₀.serving? = t.serving? := by
    obtain ⟨effects, stack, hstack, rfl⟩ := hears
    rfl
  unfold performWriteForPeer
  split
  · exact htaken
  next h hserving =>
  rw [hsame] at hserving
  split
  · exact htaken
  next hterm =>
  obtain rfl := not_not.mp hterm
  have hperformed : Performed config t₀ h ⟨message.sender, requestId⟩ payload
      (t₀.performWrite config h ⟨message.sender, requestId⟩ payload) := performWrite_performed
  generalize t₀.performWrite config h ⟨message.sender, requestId⟩ payload = t' at hperformed
  cases hperformed with
  | ignored => exact htaken
  | full hunknown =>
    rw [answerAtOnce, if_neg hforeign]
    exact (Move.hearsAgain message t₀ hears requestId payload h hbody hserving _
      (Or.inl ⟨hunknown, rfl⟩)).makesMoves
  | finished outcome hnot hfinished =>
    rw [answerAtOnce, if_neg hforeign]
    exact (Move.hearsAgain message t₀ hears requestId payload h hbody hserving outcome
      (Or.inr ⟨hnot, hfinished⟩)).makesMoves
  | admitted accepted hnew =>
    exact (Move.hearsRequest message t₀ hears requestId payload h hbody hserving
      accepted hnew).makesMoves

/-- A tab that does not hold the port withdraws. -/
theorem withdraw_rest (howner : t.election.isOwner = false) : Rest config [] t t.withdraw [] where
  writes := rfl
  issued := rfl
  holder := rfl
  election := rfl
  composed h :=
    { h with
      withdrawing := fun _ => rfl
      withdraws := fun _ => Or.inl (List.mem_cons_of_mem _ List.mem_cons_self)
      owner := fun hown => by
        have hown : t.election.isOwner = true := hown
        rw [howner] at hown
        cases hown }
  applying := List.Sublist.refl _
  outbox := (List.append_nil _).symm
  plain _ h := absurd h List.not_mem_nil

theorem applyStatus_makesMoves {status : SerialBrokerStatus} {maxTabs : MaxTabs} :
    MakesMoves config discipline t (t.applyStatus config status maxTabs) := by
  unfold applyStatus
  split
  · exact .refl
  next hguard =>
  simp only [not_or, Bool.not_eq_true] at hguard
  split
  · exact (withdraw_rest hguard.2.2).makesMoves
  · split
    · exact resendUnstarted_makesMoves.trans (setStatus_rest' _ _).makesMoves
    · exact (setStatus_rest' _ _).makesMoves

theorem apply_makesMoves (hears : t.Hears message t₀)
    (hforeign : message.body.isOfWrite = true → message.sender ≠ config.clientId)
    (htakes : discipline.takes t.holder message) :
    MakesMoves config discipline t (t₀.apply config message) := by
  have htaken : MakesMoves config discipline t t₀ := by
    obtain ⟨effects, stack, hstack, rfl⟩ := hears
    exact (taken_rest hstack).makesMoves
  have hcallback : MakesMoves config discipline t (t₀.push (.emitted none)) :=
    htaken.trans (push_rest rfl fun heq => by cases heq).makesMoves
  unfold apply
  cases hbody : message.body with
  | writeRequest requestId payload term =>
    exact performWriteForPeer_makesMoves hears (hforeign (by rw [hbody]; rfl)) hbody
  | writeReady requestId term question =>
    exact (Move.hearsReady message t₀ hears requestId term question hbody).makesMoves
  | writeApproval requestId term approved question =>
    exact (Move.hearsApproval message t₀ hears requestId term approved question hbody
      htakes).makesMoves
  | writeResult requestId ok error term => exact handleResult_makesMoves hears hbody rfl
  | dataReceived | dataSent | error => exact hcallback
  | status status maxTabs term => exact htaken.trans applyStatus_makesMoves
  | statusRequest | ownerClaimed | ownerReleased => exact htaken

theorem termEnded_makesMoves {wasCurrent : Bool} :
    MakesMoves config discipline t (t.termEnded config term wasCurrent) := by
  unfold termEnded
  dsimp only
  split
  · exact handleTermEnded_makesMoves.trans (setStatus_rest' _ _).makesMoves
  · exact handleTermEnded_makesMoves

theorem runEffect_makesMoves (hstack : t.stack = .effects (effect :: effects) :: stack)
    (hforeign : ∀ message ∈ t.applying, message.sender ≠ config.clientId)
    (htakes : ∀ message t₀, t.Hears message t₀ → discipline.takes t.holder message) :
    MakesMoves config discipline t
      (({ t with stack := .effects effects :: stack } : Tab).runEffect config effect) := by
  have htaken : MakesMoves config discipline t { t with stack := .effects effects :: stack } :=
    (taken_rest hstack).makesMoves
  cases effect with
  | apply message =>
    unfold runEffect
    dsimp only
    split
    · exact htaken
    · exact apply_makesMoves ⟨effects, stack, hstack, rfl⟩ (fun hwrite =>
          hforeign message (mem_applying hstack hwrite))
        (htakes message _ ⟨effects, stack, hstack, rfl⟩)
  | check key claim => exact htaken.trans (act_rest rfl fun _ heq => by cases heq).makesMoves
  | watch key claim => exact htaken.trans (act_rest rfl fun _ heq => by cases heq).makesMoves
  | abort key => exact htaken.trans (act_rest rfl fun _ heq => by cases heq).makesMoves
  | ended key term wasCurrent => exact htaken.trans termEnded_makesMoves

/-- Settling the writes does not look at the turn. -/
theorem settleAll_stack {requestIds : List RequestId} :
    ({ t with stack } : Tab).settleAll requestIds outcome =
      { t.settleAll requestIds outcome with stack } := by
  unfold settleAll
  induction requestIds generalizing t with
  | nil => rfl
  | cons requestId requestIds ih =>
    have hone : ({ t with
        stack } : Tab).settle requestId outcome = { t.settle requestId outcome with stack } := by
      have hpending : ({ t with stack } : Tab).pending? requestId = t.pending? requestId := rfl
      unfold settle
      rw [hpending]
      cases t.pending? requestId <;> rfl
    rw [List.foldl_cons, List.foldl_cons, hone]
    exact ih

theorem settleAll_rest {requestIds : List RequestId} :
    (t.settleAll requestIds outcome).stack = t.stack ∧
    (t.settleAll requestIds outcome).terms = t.terms ∧
      (t.settleAll requestIds outcome).nextKey = t.nextKey := by
  unfold settleAll
  induction requestIds generalizing t with
  | nil => exact ⟨rfl, rfl, rfl⟩
  | cons requestId requestIds ih =>
    obtain ⟨hstack, hterms, hnext⟩ := ih (t := t.settle requestId outcome)
    have hone : (t.settle requestId outcome).stack = t.stack ∧
        (t.settle requestId outcome).terms = t.terms ∧
        (t.settle requestId outcome).nextKey = t.nextKey := by
      unfold settle
      split <;> exact ⟨rfl, rfl, rfl⟩
    exact ⟨hstack.trans hone.1, hterms.trans hone.2.1, hnext.trans hone.2.2⟩

theorem withdrawEnd_makesMoves (hstack : t.stack = .withdraw :: stack) :
    MakesMoves config discipline t ({ t with stack } : Tab).withdrawEnd := by
  have hfail : ({ t with stack } : Tab).failAll (.plain .CONFIGURATION_CONFLICT) =
      { t.failAll (.plain .CONFIGURATION_CONFLICT) with stack } := settleAll_stack
  have hmoves : MakesMoves config discipline t (t.failAll (.plain .CONFIGURATION_CONFLICT)) :=
    failAll_makesMoves rfl
  have hsame : (t.failAll (.plain .CONFIGURATION_CONFLICT)).stack = t.stack := settleAll_rest.1
  unfold withdrawEnd
  rw [hfail]
  generalize t.failAll (.plain .CONFIGURATION_CONFLICT) = u at hmoves hsame
  have hwithdraws : Move config discipline u ({ u with
      stack
      terms := u.terms.dispose.1 } : Tab).stopElection :=
    .withdraws stack (hsame.trans hstack)
  refine (hmoves.trans hwithdraws.makesMoves).trans
    ((setStatus_rest' _ _).makesMoves.trans (push_rest ?_ fun heq => by cases heq).makesMoves)
  refine List.filterMap_eq_nil_iff.mpr fun effect heffect => ?_
  obtain ⟨entry, -, rfl⟩ := List.mem_map.mp heffect
  rfl

/-- **Going on with a turn is a sequence of moves.** -/
theorem goOn_makesMoves (hc : t.Composed)
    (hforeign : ∀ message ∈ t.applying, message.sender ≠ config.clientId)
    (htakes : ∀ message t₀, t.Hears message t₀ → discipline.takes t.holder message)
    (hstep : t.goOn config = some t') : MakesMoves config discipline t t' := by
  unfold goOn at hstep
  split at hstep
  · cases hstep
  · next stack hstack =>
      exact Option.some.inj hstep ▸ (pop_rest hstack fun heq => by cases heq).makesMoves
  · next effect effects stack hstack =>
      exact Option.some.inj hstep ▸ runEffect_makesMoves hstack hforeign htakes
  · next status stack hstack =>
    have hpop : MakesMoves config discipline t { t with stack } :=
      (pop_rest hstack fun heq => by cases heq).makesMoves
    rw [← Option.some.inj hstep]
    split
    · exact hpop.trans dispatchWaiting_makesMoves
    · exact hpop
  · next announcement stack hstack =>
    have hpop : MakesMoves config discipline t { t with stack } :=
      (pop_rest hstack fun heq => by cases heq).makesMoves
    obtain ⟨hplain, hnone⟩ := announcement.isPlain_body
    refine Option.some.inj hstep ▸ hpop.trans (send_rest hplain fun _ heq => ?_).makesMoves
    cases hnone.symm.trans heq
  · next term stack hstack =>
    have hpop : Rest config [] t { t with stack } [] := pop_rest hstack fun heq => by cases heq
    have hinput : Rest config [] { t with stack }
        (({ t with stack } : Tab).handleTerms
          (.takeOwn ⟨term, config.clientId, config.maxTabs⟩)) [] := by
      obtain ⟨-, hrest⟩ | ⟨message, heq, -⟩ :=
        handleTerms_rest config _ (hpop.composed hc)
        (.takeOwn ⟨term, config.clientId, config.maxTabs⟩)
      · exact hrest
      · cases heq
    exact Option.some.inj hstep ▸ hpop.makesMoves.trans hinput.makesMoves
  · next stack hstack => exact Option.some.inj hstep ▸ withdrawEnd_makesMoves hstack

/-! ### what happens at the port -/

/-- An input of the terms that is no message applies nothing about a write. -/
theorem input_makesMoves (hc : t.Composed) {input : TermInput}
    (hinput : ∀ message, input ≠ .message message) :
    MakesMoves config discipline t (t.handleTerms input) := by
  obtain ⟨-, hrest⟩ | ⟨message, heq, -⟩ := handleTerms_rest config t hc input
  · exact hrest.makesMoves
  · exact absurd heq (hinput message)

theorem goOnWithWrite_eq {connection : ConnectionId} (hconnection : h.connection = some connection)
    {isApproved : Bool} :
    t.goOnWithWrite h job isApproved =
      if isApproved then t.beginWrite h job connection else t.setHolder
      (h.endJob job Holder.notBegun) := by
  rw [goOnWithWrite, hconnection]

theorem goOnWithWrite_own_makesMoves (hholder : t.holder = some h) {rest : List Job}
    (hwaiting : h.waiting = job :: rest)
    (hrunning : h.running = none) (horigin : job.key.origin = config.clientId)
    {connection : ConnectionId}
    (hconnection : h.connection = some connection) :
    MakesMoves config discipline t ((t.approve job.key.requestId h.term).1.goOnWithWrite
      { h with waiting := rest } job
      (t.approve job.key.requestId h.term).2) := by
  have hconnected : ({ h with waiting := rest } : Holder).connection = some connection :=
    hconnection
  have hturned : MakesMoves config discipline t (t.goOnWithWrite
      { h with waiting := rest } job false) := by
    rw [goOnWithWrite_eq hconnected]
    exact (Move.endsFirst h hholder job rest hwaiting hrunning Holder.notBegun rfl).makesMoves
  unfold approve
  split
  · exact hturned
  next w hpending =>
  split
  · exact hturned
  next hterm =>
  obtain ⟨hw, hid⟩ := mem_of_pending hpending
  have hbegins : Move config discipline t _ :=
    .beginsOwn h hholder job rest hwaiting hrunning horigin connection hconnection w hw hid
      (not_not.mp hterm)
  rw [hid] at hbegins
  rw [goOnWithWrite_eq hconnected]
  exact hbegins.makesMoves

theorem startJob_makesMoves (hholder : t.holder = some h) {rest : List Job}
    (hwaiting : h.waiting = job :: rest) (hrunning : h.running = none)
    {isExpired : Bool} : MakesMoves config discipline t (t.startJob config h job isExpired) := by
  have hends : ∀ outcome : WriteOutcome, outcome.isUnbegun = true →
      MakesMoves config discipline t (t.setHolder
        (({ h with waiting := rest } : Holder).endJob job outcome)) := fun outcome hunbegun =>
    (Move.endsFirst h hholder job rest hwaiting hrunning outcome hunbegun).makesMoves
  unfold startJob
  dsimp only
  rw [hwaiting, List.tail_cons]
  split
  · exact hends _ rfl
  split
  · exact hends _ rfl
  next connection hconnection =>
  unfold askToBegin
  split
  · next horigin => exact goOnWithWrite_own_makesMoves hholder hwaiting hrunning horigin hconnection
  · next horigin =>
      exact (Move.asksToBegin h hholder job rest hwaiting hrunning horigin connection
        hconnection).makesMoves

theorem answerJob_makesMoves (hholder : t.holder = some h) {ended : EndedJob}
    (hended : ended ∈ h.ended)
    (hforgets : discipline.Allows h ended) :
    MakesMoves config discipline t (t.answerJob config h ended) := by
  have hanswered : MakesMoves config discipline t (if ended.job.key.origin = config.clientId then
      (t.setHolder { h with
        ended := h.ended.filter fun e => e.job.id ≠ ended.job.id
        accepted := h.accepted.finish ended.job.key ended.outcome }).handleResult config
          ended.job.key.requestId (some h.term) ended.outcome
      else (t.setHolder { h with
        ended := h.ended.filter fun e => e.job.id ≠ ended.job.id
        accepted := h.accepted.finish ended.job.key ended.outcome }).finishedForPeer config { h with
        ended := h.ended.filter fun e => e.job.id ≠ ended.job.id
        accepted := h.accepted.finish ended.job.key ended.outcome } ended.job.key
          ended.outcome) := by
    split
    · next horigin =>
      have hpending' : (t.setHolder { h with
        ended := h.ended.filter fun e => e.job.id ≠ ended.job.id
        accepted := h.accepted.finish ended.job.key ended.outcome }).pending?
          ended.job.key.requestId =
          t.pending? ended.job.key.requestId := rfl
      unfold handleResult
      rw [hpending']
      split
      · next hnone =>
        refine (Move.answersOwn h hholder ended hended hforgets horigin _ rfl
          fun w hpending => ?_).makesMoves
        rw [hnone] at hpending
        cases hpending
      next w hpending =>
      obtain ⟨hw, hid⟩ := mem_of_pending hpending
      split
      · next hterm =>
        refine (Move.answersOwn h hholder ended hended hforgets horigin _ rfl
          fun w' hpending' heq => ?_).makesMoves
        rw [hpending] at hpending'
        obtain rfl := Option.some.inj hpending'
        obtain hterm | hterm := hterm
        · cases hterm
        · exact hterm heq.symm
      next hterm =>
      rw [not_or, not_not] at hterm
      split
      · next houtcome =>
        have hback := Move.handsBackOwn h hholder ended hended hforgets horigin w hw hid
          hterm.2.symm houtcome
        rw [hid] at hback
        exact hback.makesMoves.trans dispatch_makesMoves
      · have hsettles := Move.settlesOwn h hholder ended hended hforgets horigin w hw
          hid hterm.2.symm
        rw [hid] at hsettles
        exact hsettles.makesMoves
    · next horigin => exact (Move.answersPeer h hholder ended hended hforgets horigin).makesMoves
  unfold answerJob
  dsimp only
  split
  · exact hanswered.trans (push_rest rfl fun heq => by cases heq).makesMoves
  · exact hanswered

theorem stopped_makesMoves (hc : t.Composed) (hholder : t.holder = some h) {deadline : DeadlineId}
    (hstage : h.stage = .answering deadline)
    (hanswered : h.unanswered = [] ∨ h.hasRunOut deadline = true) :
    MakesMoves config discipline t (t.stopped config h) := by
  have hbye : Move config discipline t _ := .saysGoodbye h hholder deadline hstage hanswered
  exact hbye.makesMoves.trans (input_makesMoves (hbye.composed hc) fun _ heq => by cases heq)

theorem broadcastStatus_makesMoves {status : SerialBrokerStatus} :
    MakesMoves config discipline t (t.broadcastStatus config status) := by
  unfold broadcastStatus
  split
  · next h hserving =>
    refine (send_rest rfl fun term hterm => ⟨h, hserving, ?_⟩).makesMoves
    exact Option.some.inj hterm
  · exact .refl

/-- **What happens at the port is a sequence of moves.** -/
theorem portStep_makesMoves {event : PortEvent} (hc : t.Composed) (hholder : t.holder = some h)
    (hforgets : ∀ id, event = .jobReported id → ∀ ended, h.ended.find? (fun ended =>
      ended.job.id = id) = some ended → discipline.Allows h ended)
    (hstep : t.portStep config h event = some t') :
    MakesMoves config discipline t t' := by
  cases event with
  | opened =>
    simp only [portStep] at hstep
    split at hstep
    · next hguard =>
        exact Option.some.inj hstep ▸ (Move.connects h hholder _ _ (Or.inl hguard.1)).makesMoves
    · cases hstep
  | lost =>
    exact Option.some.inj hstep ▸
      (Move.connects h hholder none h.nextConnection (Or.inr rfl)).makesMoves
  | status status =>
    simp only [portStep] at hstep
    split at hstep
    · exact Option.some.inj hstep ▸
        broadcastStatus_makesMoves.trans (setStatus_rest' _ _).makesMoves
    · cases hstep
  | data payload text =>
    simp only [portStep] at hstep
    split at hstep
    · exact Option.some.inj hstep ▸ (push_rest rfl fun heq => by cases heq).makesMoves
    · cases hstep
  | error error =>
    simp only [portStep] at hstep
    split at hstep
    · exact Option.some.inj hstep ▸ (push_rest rfl fun heq => by cases heq).makesMoves
    · cases hstep
  | restated =>
    simp only [portStep] at hstep
    split at hstep
    · exact Option.some.inj hstep ▸ broadcastStatus_makesMoves
    · cases hstep
  | jobStarted isExpired =>
    simp only [portStep] at hstep
    split at hstep
    · next job rest hrunning hwaiting =>
        exact Option.some.inj hstep ▸ startJob_makesMoves hholder hwaiting hrunning
    · cases hstep
  | askExpired =>
    simp only [portStep] at hstep
    split at hstep
    · next job question hrunning =>
        exact Option.some.inj hstep ▸ (Move.expiresAsked h hholder job question hrunning).makesMoves
    · cases hstep
  | jobWentOn =>
    simp only [portStep] at hstep
    split at hstep
    · next job isApproved hrunning =>
      rw [← Option.some.inj hstep]
      unfold goOnWithWrite
      split
      · exact (Move.turnsBack h hholder job isApproved hrunning Holder.notConnected rfl).makesMoves
      next connection hconnection =>
      split
      · next happroved =>
        subst happroved
        exact (Move.begins h hholder job hrunning connection hconnection).makesMoves
      · exact (Move.turnsBack h hholder job isApproved hrunning Holder.notBegun rfl).makesMoves
    · cases hstep
  | chunkTaken =>
    simp only [portStep] at hstep
    split at hstep
    · next job connection offset hrunning =>
        exact Option.some.inj hstep ▸
          (Move.takesChunk h hholder job connection offset hrunning).makesMoves
    · cases hstep
  | chunkFailed =>
    simp only [portStep] at hstep
    split at hstep
    · next job connection offset hrunning =>
      rw [← Option.some.inj hstep]
      have hfails : ∀ c, c = h.connection ∨ c = none →
        Move config discipline t (t.setHolder { h with
          running := none
          ended := h.ended ++ [⟨job, some ⟨.WRITE_FAILED, none, some offset⟩⟩]
          connection := c }) := fun c hc =>
        .failsChunk h hholder job connection offset hrunning _ rfl (by simp) none
          (fun _ heq => by cases heq) c hc
      unfold Holder.loseConnection
      split
      · exact (hfails none (Or.inr rfl)).makesMoves
      · exact (hfails h.connection (Or.inl rfl)).makesMoves
    · cases hstep
  | chunkTimedOut =>
    simp only [portStep] at hstep
    split at hstep
    · next job connection offset hrunning =>
      rw [← Option.some.inj hstep]
      exact (Move.failsChunk h hholder job connection offset hrunning
          (some ⟨.WRITE_TIMEOUT, none, some offset⟩) rfl (by simp)
        (some ⟨job, .stalled connection⟩) (fun r heq => ⟨connection, (Option.some.inj heq).symm⟩)
          h.connection (Or.inl rfl)).makesMoves
    · cases hstep
  | stallEnded isFailed =>
    simp only [portStep] at hstep
    split at hstep
    · next job connection hrunning =>
      rw [← Option.some.inj hstep]
      have hends : ∀ c, c = h.connection ∨ c = none → MakesMoves config discipline t (t.setHolder
          { h with running := none, connection := c }) := fun c hc =>
        (Move.endsStall h hholder job connection hrunning c hc).makesMoves
      split
      · unfold Holder.loseConnection
        split
        · exact hends none (Or.inr rfl)
        · exact hends h.connection (Or.inl rfl)
      · exact hends h.connection (Or.inl rfl)
    · cases hstep
  | jobExpired id =>
    simp only [portStep] at hstep
    split at hstep
    · next job hlookup =>
      have hid : job.id = id := KeyedList.key_of_lookup hlookup
      rw [← Option.some.inj hstep, ← hid]
      exact (Move.expiresQueued h hholder job (KeyedList.mem_of_lookup hlookup)).makesMoves
    · cases hstep
  | jobReported id =>
    simp only [portStep] at hstep
    split at hstep
    · next ended hfind =>
      rw [← Option.some.inj hstep]
      exact answerJob_makesMoves hholder (List.mem_of_find?_eq_some hfind)
        (hforgets id rfl ended hfind)
    · cases hstep
  | tornDown =>
    simp only [portStep] at hstep
    split at hstep
    · next hstopping =>
        exact Option.some.inj hstep ▸ (Move.tearsDown h hholder hstopping).makesMoves
    · cases hstep
  | writesAnswered =>
    simp only [portStep] at hstep
    split at hstep
    · next deadline hstage =>
      split at hstep
      · next hnone =>
          exact Option.some.inj hstep ▸ stopped_makesMoves hc hholder hstage (Or.inl hnone)
      · cases hstep
    · cases hstep
  | answersGivenUp =>
    simp only [portStep] at hstep
    split at hstep
    · next deadline hstage =>
      split at hstep
      · next hout =>
          exact Option.some.inj hstep ▸ stopped_makesMoves hc hholder hstage (Or.inr hout)
      · cases hstep
    · cases hstep

/-! ### calls of the application -/

theorem release_makesMoves : MakesMoves config discipline t t.release := by
  have hreleased : Rest config [] t { t with isReleased := true } [] :=
    { refl_rest t with composed := fun h => { h with } }
  have hfails : MakesMoves config discipline ({ t with isReleased := true } : Tab)
      (({ t with isReleased := true } : Tab).failAll (.plain .CONFIGURATION_RELEASED)) :=
    failAll_makesMoves rfl
  unfold release
  dsimp only
  split
  · next h hserving =>
      exact (hreleased.makesMoves.trans hfails).trans (Move.givesUp h hserving).makesMoves
  · exact hreleased.makesMoves.trans hfails

theorem startElection_makesMoves : MakesMoves config discipline t t.startElection := by
  by_cases hstopped : t.election.isStopped = true
  · rw [startElection, if_pos hstopped]
  by_cases hphase : t.election.phase = .off ∨ t.election.phase = .paused
  · exact (Move.requests hphase (by simpa using hstopped)).makesMoves
  · have hsame : t.startElection = t := by
      unfold startElection
      rw [if_neg hstopped]
      cases hp : t.election.phase <;> simp_all
    rw [hsame]

theorem join_makesMoves : MakesMoves config discipline t (t.join config) := by
  have hjoined : Rest config [] t { t with isJoined := true } [] :=
    { refl_rest t with composed := fun h => { h with } }
  have hasks : MakesMoves config discipline ({ t with isJoined := true } : Tab)
      (({ t with isJoined := true } : Tab).send config .all (.statusRequest false)) :=
    (send_rest rfl fun _ heq => by cases heq).makesMoves
  exact (hjoined.makesMoves.trans hasks).trans startElection_makesMoves

theorem releaseEnd_makesMoves (hc : t.Composed) : MakesMoves config discipline t t.releaseEnd :=
  (input_makesMoves hc fun _ heq => by cases heq).trans (setStatus_rest' _ _).makesMoves

theorem handleMessage_cases (t : Tab) (message : ProtocolMessage) :
    t.handleMessage message = t ∨ t.handleMessage message = t.handleTerms (.message message) := by
  unfold handleMessage
  exact ite_eq_or_eq _ _ _

theorem busReconnected_makesMoves : MakesMoves config discipline t (t.busReconnected config) := by
  unfold busReconnected
  split
  · exact .refl
  split
  · exact broadcastStatus_makesMoves
  · exact (send_rest rfl fun _ heq => by cases heq).makesMoves

end Tab

end SerialBroker
