import SerialBroker.Client.TurnMoves
import SerialBroker.System.Runs

/-!
# What can happen to all the tabs, one thing at a time

A step of the system is a sequence of moves: a move of one tab, carried out at once; a message that
arrives; a lock that is granted, refused or let go; a crash; or something that concerns the checks
and watches of the terms only. An invariant of the runs looks at the moves.
-/

namespace SerialBroker

namespace System

variable {settings : ClientId → TabSettings} {discipline : Discipline} {s s' : System}
  {tab : ClientId} {t t' : Tab} {deeds : List Action}

/-! ### carrying out what a tab did -/

/-- Carries out what a tab did outside, in order. -/
def performAll (settings : ClientId → TabSettings) (s : System) (tab : ClientId)
    (deeds : List Action) : System :=
  deeds.foldl (fun s action => s.perform settings tab action) s

/-- The messages of these to a context. -/
def sentTo (tab receiver : ClientId) (deeds : List Action) : List ProtocolMessage :=
  deeds.filterMap fun deed => match deed with
    | .send message => if message.target.reaches tab receiver then some message else none
    | _ => none

/-- A term's lock: who holds it exclusively holds it alone, and its owner asks for it
exclusively. -/
def TermLockSound (lock : WebLock TermLockUse) : Prop :=
  lock.Exclusion ∧ ∀ r ∈ lock.held ++ lock.queue, ∀ tab, r.id = .own tab → r.isExclusive = true

namespace TermLockSound

variable {lock lock' : WebLock TermLockUse} {use : TermLockUse} {r : LockRequest TermLockUse}

theorem request (h : TermLockSound lock) (hr : ∀ tab, r.id = .own tab → r.isExclusive = true) :
    TermLockSound (lock.request r) :=
  ⟨h.1.request r, fun r' hr' => by
    rw [WebLock.request, ← List.append_assoc] at hr'
    obtain hr' | hr' := List.mem_append.mp hr'
    · exact h.2 r' hr'
    · rw [List.mem_singleton.mp hr']
      exact hr⟩

theorem filter (h : TermLockSound lock) (p q : LockRequest TermLockUse → Bool) :
    TermLockSound ⟨lock.held.filter p, lock.queue.filter q⟩ :=
  ⟨h.1.filter p _, fun r' hr' =>
    h.2 r' ((List.filter_sublist.append List.filter_sublist).subset hr')⟩

theorem withdraw (h : TermLockSound lock) (use : TermLockUse) : TermLockSound (lock.withdraw use) :=
  ⟨h.1, fun r' hr' => h.2 r' ((List.Sublist.append_left List.filter_sublist _).subset hr')⟩

theorem letGo (h : TermLockSound lock) (use : TermLockUse) : TermLockSound (lock.letGo use) :=
  ⟨h.1.letGo use, fun r' hr' =>
    h.2 r' ((List.Sublist.append_right List.filter_sublist _).subset hr')⟩

theorem grant (h : TermLockSound lock) (hgrant : lock.grant use = some lock') :
    TermLockSound lock' := by
  obtain ⟨r, hqueue, -, -, hheld⟩ := WebLock.grant_eq_some.mp hgrant
  refine ⟨WebLock.exclusion_of_grant hgrant, fun r' hr' => h.2 r' ?_⟩
  rw [hqueue]
  rw [hheld, List.append_assoc] at hr'
  exact hr'

/-- Its owner is granted the lock exclusively. -/
theorem own_of_grant (h : TermLockSound lock) {tab : ClientId}
    (hgrant : lock.grant (.own tab) = some lock') :
    ⟨.own tab, true⟩ ∈ lock'.held := by
  obtain ⟨r, hqueue, hid, -, hheld⟩ := WebLock.grant_eq_some.mp hgrant
  have hexclusive := h.2 r (hqueue ▸ List.mem_append_right _ List.mem_cons_self) tab hid
  have hr : r = ⟨.own tab, true⟩ := by rw [← hid, ← hexclusive]
  rw [hheld, hr]
  exact List.mem_append_right _ List.mem_cons_self

end TermLockSound

theorem sound_updateTermLock {claim : TermClaim} {f : WebLock TermLockUse → WebLock TermLockUse}
    {other : TermClaim}
    (hf : TermLockSound (s.termLock claim) → TermLockSound (f (s.termLock claim)))
    (h : TermLockSound (s.termLock other)) :
    TermLockSound ((s.updateTermLock claim f).termLock other) := by
  simp only [updateTermLock, Function.update_apply]
  split
  · next heq =>
    subst heq
    exact hf h
  · exact h

theorem perform_sound (s : System) (tab : ClientId) (action : Action) {claim : TermClaim}
    (h : TermLockSound (s.termLock claim)) :
    TermLockSound ((s.perform settings tab action).termLock claim) := by
  cases action with
  | requestTermLock term =>
    exact sound_updateTermLock (f := fun lock => lock.request ⟨.own tab, true⟩) (fun h =>
      h.request fun _ _ => rfl) h
  | requestGoodbye term =>
    exact sound_updateTermLock (f := fun lock => lock.request ⟨.goodbye tab, true⟩) (fun h =>
      h.request fun _ _ => rfl) h
  | abortWatch key => exact h.withdraw _
  | send | requestOwnerLock | withdrawOwnerRequest | check | watch | began | chunkTaken | settled =>
    exact h

theorem performAll_sound (s : System) (tab : ClientId) (deeds : List Action) {claim : TermClaim}
    (h : TermLockSound (s.termLock claim)) :
    TermLockSound ((s.performAll settings tab deeds).termLock claim) := by
  unfold performAll
  induction deeds generalizing s with
  | nil => exact h
  | cons deed deeds ih => exact ih _ (perform_sound s tab deed h)

/-- What carrying out one deed changes. -/
theorem perform_same (settings : ClientId → TabSettings) (s : System) (tab : ClientId)
    (action : Action) :
    (s.perform settings tab action).tabs = s.tabs ∧
      (s.perform settings tab action).isCrashed = s.isCrashed ∧
      (s.perform settings tab action).granted = s.granted ∧
        (s.perform settings tab action).log = s.log ++ [(tab, action)] ∧
      (s.perform settings tab action).ownerLock.held = s.ownerLock.held ∧
      ∀ claim, ((s.perform settings tab action).termLock claim).held = (s.termLock claim).held := by
  have hupdate : ∀ (s : System) (c : TermClaim) (f : WebLock TermLockUse → WebLock TermLockUse),
      (∀ lock, (f lock).held = lock.held) →
      ∀ claim, ((s.updateTermLock c f).termLock claim).held = (s.termLock claim).held := by
    intro s c f hf claim
    simp only [updateTermLock, Function.update_apply]
    split
    · next heq => rw [hf, heq]
    · rfl
  cases action with
  | requestTermLock term =>
    exact ⟨rfl, rfl, rfl, rfl, rfl, hupdate s (ownClaim settings tab term) (fun lock =>
      lock.request ⟨.own tab, true⟩) fun _ => rfl⟩
  | requestGoodbye term =>
    exact ⟨rfl, rfl, rfl, rfl, rfl, hupdate s (ownClaim settings tab term) (fun lock =>
      lock.request ⟨.goodbye tab, true⟩) fun _ => rfl⟩
  | send | requestOwnerLock | withdrawOwnerRequest | check | watch | abortWatch | began
  | chunkTaken | settled =>
    exact ⟨rfl, rfl, rfl, rfl, rfl, fun _ => rfl⟩

theorem performAll_same (s : System) (tab : ClientId) (deeds : List Action) :
    (s.performAll settings tab deeds).tabs = s.tabs ∧
      (s.performAll settings tab deeds).isCrashed = s.isCrashed ∧
      (s.performAll settings tab deeds).granted = s.granted ∧
      (s.performAll settings tab deeds).log = s.log ++ deeds.map (fun deed => (tab, deed)) ∧
      (s.performAll settings tab deeds).ownerLock.held = s.ownerLock.held ∧
      ∀ claim, ((s.performAll settings tab deeds).termLock claim).held =
        (s.termLock claim).held := by
  unfold performAll
  induction deeds generalizing s with
  | nil => exact ⟨rfl, rfl, rfl, (List.append_nil _).symm, rfl, fun _ => rfl⟩
  | cons deed deeds ih =>
    obtain ⟨htabs, hcrashed, hgranted, hlog, howner, hterms⟩ := perform_same settings s tab deed
    obtain ⟨htabs', hcrashed', hgranted', hlog', howner', hterms'⟩ :=
      ih (s.perform settings tab deed)
    refine ⟨htabs'.trans htabs, hcrashed'.trans hcrashed, hgranted'.trans hgranted, ?_,
      howner'.trans howner,
      fun claim => (hterms' claim).trans (hterms claim)⟩
    rw [List.foldl_cons, hlog', hlog, List.append_assoc]
    rfl

theorem perform_channel (s : System) (action : Action)
    (hsender : ∀ message, action = .send message → message.sender = tab)
    (sender receiver : ClientId) : (s.perform settings tab action).channel sender receiver =
      if sender = tab then s.channel tab receiver ++ sentTo tab receiver
      [action] else s.channel sender receiver := by
  have hsame : ∀ channel : List ProtocolMessage, sentTo tab receiver [action] = [] →
      s.channel sender receiver =
        if sender = tab then s.channel tab receiver ++ sentTo tab receiver [action]
        else s.channel sender receiver := by
    intro _ hnone
    rw [hnone, List.append_nil]
    split
    · next heq => rw [heq]
    · rfl
  cases action with
  | send message =>
    have hsender : message.sender = tab := hsender message rfl
    show (if sender = message.sender ∧ message.target.reaches sender receiver = true then
        s.channel sender receiver ++ [message]
      else s.channel sender receiver) = _
    rw [hsender]
    by_cases heq : sender = tab
    · subst heq
      rw [if_pos rfl]
      by_cases hreaches : message.target.reaches sender receiver = true
      · rw [if_pos ⟨rfl, hreaches⟩]
        simp [sentTo, hreaches]
      · rw [if_neg fun h => hreaches h.2]
        simp [sentTo, hreaches]
    · rw [if_neg heq, if_neg fun h => heq h.1]
  | requestOwnerLock | withdrawOwnerRequest | requestTermLock | requestGoodbye | check | watch
  | abortWatch | began | chunkTaken | settled =>
    exact hsame [] rfl

theorem performAll_channel (s : System) (hsender : ∀ message, .send message ∈ deeds →
      message.sender = tab) (sender receiver : ClientId) :
    (s.performAll settings tab deeds).channel sender receiver =
      if sender = tab then s.channel tab receiver ++ sentTo tab receiver deeds
        else s.channel sender receiver := by
  unfold performAll
  induction deeds generalizing s with
  | nil =>
    rw [List.foldl_nil, sentTo, List.filterMap_nil, List.append_nil]
    split
    · next heq => rw [heq]
    · rfl
  | cons deed deeds ih =>
    have hcons : sentTo tab receiver (deed :: deeds) = sentTo tab receiver [deed] ++
        sentTo tab receiver deeds := by
      rw [sentTo, ← List.singleton_append, List.filterMap_append]
      rfl
    rw [List.foldl_cons, ih _ fun message hmem => hsender message (List.mem_cons_of_mem _ hmem),
      perform_channel s deed (fun message heq => hsender message (heq ▸ List.mem_cons_self)),
      perform_channel s deed (fun message heq => hsender message (heq ▸ List.mem_cons_self)),
      if_pos rfl, hcons, List.append_assoc]
    split
    · rfl
    · rfl

theorem perform_withTabs (s : System) (tab : ClientId) (action : Action) (tabs : ClientId → Tab) :
    ({ s with tabs } : System).perform settings tab action =
      { s.perform settings tab action with tabs } := by
  cases action <;> rfl

theorem performAll_withTabs (s : System) (tab : ClientId) (deeds : List Action)
    (tabs : ClientId → Tab) :
    ({ s with tabs } : System).performAll settings tab deeds =
      { s.performAll settings tab deeds with tabs } := by
  unfold performAll
  induction deeds generalizing s with
  | nil => rfl
  | cons deed deeds ih => rw [List.foldl_cons, List.foldl_cons, perform_withTabs, ih]

theorem setTab_eq (s : System) (tab : ClientId) (t : Tab) :
    s.setTab settings tab t =
      { s.performAll settings tab t.outbox with
      tabs := Function.update s.tabs tab { t with outbox := [] } } :=
  performAll_withTabs s tab t.outbox _

/-- A tab that goes on has what it did before carried out already. -/
theorem setTab_setTab (s : System) (tab : ClientId) (houtbox : t'.outbox = t.outbox ++ deeds) :
    (s.setTab settings tab t).setTab settings tab
      { t' with outbox := deeds } = s.setTab settings tab t' := by
  simp only [setTab_eq, performAll_withTabs, houtbox, Function.update_idem]
  rw [performAll, performAll, performAll, List.foldl_append]

/-- What the next state of a tab changes, where nothing it sends comes from somebody else. -/
theorem setTab_same (settings : ClientId → TabSettings) (s : System) (tab : ClientId) (t : Tab) :
    (s.setTab settings tab t).tabs = Function.update s.tabs tab { t with outbox := [] } ∧
      (s.setTab settings tab t).isCrashed = s.isCrashed ∧
        (s.setTab settings tab t).granted = s.granted ∧
      (s.setTab settings tab t).log = s.log ++ t.outbox.map (fun deed => (tab, deed)) ∧
      (s.setTab settings tab t).ownerLock.held = s.ownerLock.held ∧
      ∀ claim, ((s.setTab settings tab t).termLock claim).held = (s.termLock claim).held := by
  rw [setTab_eq]
  exact ⟨rfl, (performAll_same s tab t.outbox).2⟩

theorem setTab_sound (settings : ClientId → TabSettings) (s : System) (tab : ClientId) (t : Tab)
    {claim : TermClaim} (h : TermLockSound (s.termLock claim)) :
    TermLockSound ((s.setTab settings tab t).termLock claim) := by
  rw [setTab_eq]
  exact performAll_sound s tab t.outbox h

theorem setTab_channel (s : System) (tab : ClientId) (t : Tab)
    (hsender : ∀ message, .send message ∈ t.outbox → message.sender = tab)
    (sender receiver : ClientId) : (s.setTab settings tab t).channel sender receiver =
      if sender = tab then s.channel tab receiver ++ sentTo tab receiver t.outbox
        else s.channel sender receiver := by
  rw [setTab_eq]
  exact performAll_channel s hsender sender receiver

/-! ### the moves -/

/-- What concerns only the checks and watches of the terms, or loses messages. -/
structure Aside (s s' : System) : Prop where
  tabs : s'.tabs = s.tabs
  isCrashed : s'.isCrashed = s.isCrashed
  ownerLock : s'.ownerLock = s.ownerLock
  granted : s'.granted = s.granted
  log : s'.log = s.log
  channel : ∀ sender receiver, (s'.channel sender receiver).Sublist (s.channel sender receiver)
  held : ∀ claim tab, ⟨.own tab, true⟩ ∈ (s.termLock claim).held →
    ⟨.own tab, true⟩ ∈ (s'.termLock claim).held
  sound : ∀ claim, TermLockSound (s.termLock claim) → TermLockSound (s'.termLock claim)

/-- One thing that happens. -/
inductive Move (settings : ClientId → TabSettings) (discipline : Discipline) (s : System) :
    System → Prop
  | aside (s' : System) (haside : Aside s s') : Move settings discipline s s'
  | crashes (tab : ClientId) : Move settings discipline s (s.crash tab)
  | acts (tab : ClientId) (hlive : s.isCrashed tab = false) (t' : Tab)
      (hmove : (s.tabs tab).Move (config settings tab) discipline t') :
      Move settings discipline s (s.setTab settings tab t')
  | hears (sender receiver : ClientId) (hlive : s.isCrashed receiver = false)
      (hidle : (s.tabs receiver).stack = []) (message : ProtocolMessage)
      (rest : List ProtocolMessage)
      (hchannel : s.channel sender receiver = message :: rest) (t' : Tab)
      (hrest : Tab.Rest (config settings receiver) [message] (s.tabs receiver) t' []) :
      Move settings discipline s (({ s with
      channel := Function.update s.channel sender
        (Function.update (s.channel sender) receiver rest) } :
        System).setTab settings receiver t')
  | grantsOwner (tab : ClientId) (hlive : s.isCrashed tab = false)
      (hphase : (s.tabs tab).election.phase = .requested)
      (lock : WebLock ClientId) (hgrant : s.ownerLock.grant tab = some lock) :
      Move settings discipline s (({ s with
      ownerLock := lock
      granted := s.granted ++ [tab] } : System).setTab settings tab
        ((s.tabs tab).ownerGranted s.granted.length))
  | refusesOwner (tab : ClientId) (hlive : s.isCrashed tab = false)
      (hphase : (s.tabs tab).election.phase = .requested) :
      Move settings discipline s (({ s with ownerLock := s.ownerLock.withdraw tab } :
        System).setTab settings tab (s.tabs tab).lockRefused)
  | grantsTerm (tab : ClientId) (hlive : s.isCrashed tab = false) (hidle : (s.tabs tab).stack = [])
      (term : TermId)
      (hphase : (s.tabs tab).election.phase = .locking term) (lock : WebLock TermLockUse)
      (hgrant : (s.termLock (ownClaim settings tab term)).grant (.own tab) = some lock) :
      Move settings discipline s
      ((s.updateTermLock (ownClaim settings tab term) fun _ => lock).setTab settings tab
        ((s.tabs tab).termGranted (config settings tab) term))
  | refusesTerm (tab : ClientId) (hlive : s.isCrashed tab = false) (term : TermId)
      (hphase : (s.tabs tab).election.phase = .locking term) :
      Move settings discipline s
      (({ s.updateTermLock (ownClaim settings tab term) (fun lock => lock.withdraw (.own tab)) with
        ownerLock := s.ownerLock.letGo tab } : System).setTab settings tab (s.tabs tab).lockRefused)
  | letsTermGo (tab : ClientId) (hlive : s.isCrashed tab = false) (term : TermId)
      (hphase : (s.tabs tab).election.phase = .leaving term true) :
      Move settings discipline s ((s.updateTermLock (ownClaim settings tab term) fun lock =>
          lock.letGo (.own tab)).setTab settings tab
        ((s.tabs tab).termLetGo term))
  | letsOwnerGo (tab : ClientId) (hlive : s.isCrashed tab = false) (term : TermId)
      (hphase : (s.tabs tab).election.phase = .leaving term false) :
      Move settings discipline s (({ s with
        ownerLock := s.ownerLock.letGo tab } : System).setTab settings tab (s.tabs tab).ownerLetGo)

abbrev Moves (settings : ClientId → TabSettings) (discipline : Discipline) :
    System → System → Prop := Relation.ReflTransGen (Move settings discipline)

theorem Move.moves (h : Move settings discipline s s') : Moves settings discipline s s' :=
  Relation.ReflTransGen.single h

/-- What every state between two moves is: nothing waits to be carried out, and no tab hears
itself. -/
structure Grounded (s : System) : Prop where
  outbox : ∀ tab, (s.tabs tab).outbox = []
  composed : ∀ tab, (s.tabs tab).Composed
  applying : ∀ tab, ∀ message ∈ (s.tabs tab).applying, message.sender ≠ tab
  channel : ∀ sender receiver, ∀ message ∈ s.channel sender receiver, message.sender = sender ∧
    sender ≠ receiver

theorem init_grounded : Grounded .init where
  outbox _ := rfl
  composed _ :=
    { terms :=
        { terms := List.nodup_nil
          keys := List.nodup_nil
          fresh := fun _ h => absurd h List.not_mem_nil
          entries := fun _ h => absurd h List.not_mem_nil
          current := fun _ h => by cases h
          disposed := fun hdisposed => by cases hdisposed
          size := Nat.zero_le _
          led := fun _ h => absurd h List.not_mem_nil }
      withdrawing := fun h => absurd h List.not_mem_nil
      withdraws := fun h => by cases h
      owner := fun h => by cases h
      acquired := fun _ h => by cases h
      serving := fun _ h => by cases h
      port := fun _ h => by cases h }
  applying _ _ h := absurd h List.not_mem_nil
  channel _ _ _ h := absurd h List.not_mem_nil

theorem mem_sentTo {receiver : ClientId} {message : ProtocolMessage}
    (h : message ∈ sentTo tab receiver deeds) :
    .send message ∈ deeds ∧ message.target.reaches tab receiver = true := by
  obtain ⟨deed, hdeed, heq⟩ := List.mem_filterMap.mp h
  cases deed with
  | send message' =>
    dsimp only at heq
    split at heq
    · next hreaches =>
      obtain rfl := Option.some.inj heq
      exact ⟨hdeed, hreaches⟩
    · cases heq
  | requestOwnerLock | withdrawOwnerRequest | requestTermLock | requestGoodbye | check | watch
  | abortWatch | began | chunkTaken | settled =>
    cases heq

/-- A tab that is set to a state that keeps the ground does so for all of them. -/
theorem Grounded.setTab (hs : s.Grounded) (hcomposed : t.Composed)
    (happlying : ∀ message ∈ t.applying, message.sender ≠ tab)
    (hsender : ∀ message, .send message ∈ t.outbox →
      message.sender = tab ∧ message.target ≠ .client tab) :
    (s.setTab settings tab t).Grounded := by
  obtain ⟨htabs, -⟩ := setTab_same settings s tab t
  have hother : ∀ other, (s.setTab settings tab t).tabs other = if other = tab then
      { t with outbox := [] }
  else s.tabs other := fun other => by
    rw [htabs, Function.update_apply]
  refine ⟨fun other => ?_, fun other => ?_, fun other => ?_, fun sender receiver message hmem => ?_⟩
  · rw [hother]
    split
    · rfl
    · exact hs.outbox other
  · rw [hother]
    split
    · exact hcomposed.withWrites t.writes t.issued []
    · exact hs.composed other
  · rw [hother]
    split
    · next heq => exact heq ▸ happlying
    · exact hs.applying other
  · rw [setTab_channel s tab t (fun message hmem => (hsender message hmem).1)] at hmem
    split at hmem
    · next heq =>
      subst heq
      obtain hmem | hmem := List.mem_append.mp hmem
      · exact hs.channel sender receiver message hmem
      · obtain ⟨hsent, hreaches⟩ := mem_sentTo hmem
        obtain ⟨hself, htarget⟩ := hsender message hsent
        refine ⟨hself, fun heq => ?_⟩
        subst heq
        cases htarget' : message.target with
        | all =>
          rw [htarget'] at hreaches
          simp [MessageTarget.reaches] at hreaches
        | client id =>
          rw [htarget'] at hreaches htarget
          exact htarget (by rw [of_decide_eq_true hreaches])
    · exact hs.channel sender receiver message hmem

/-! ### the locks of the election -/

/-- An election that does not own the port has no port to give up, or has given it up. -/
theorem stopped_of_composed (hc : t.Composed) (hphase : ∀ term, t.election.phase ≠ .owner term)
    {h : Holder} (hholder : t.holder = some h) :
    h.stage = .stopped ∧ t.election.isStopped = true :=
  (hc.port h hholder).resolve_left (hphase h.term)

theorem composed_withElection (hc : t.Composed) (hphase : ∀ term, t.election.phase ≠ .owner term)
    {election : Election}
    (hstopped : election.isStopped = t.election.isStopped)
    (howner : election.isOwner = true → t.isWithdrawn = false)
    (hacquired : ∀ term, election.phase = .owner term → election.isOwner = true) :
    ({ t with election } : Tab).Composed :=
  { hc with
    withdraws := fun hwithdrawn => (hc.withdraws hwithdrawn).imp_right hstopped.trans
    owner := howner
    acquired := hacquired
    serving := fun _ hholder hrunning => absurd (stopped_of_composed hc hphase hholder).1 hrunning
    port := fun _ hholder =>
      Or.inr ⟨(stopped_of_composed hc hphase hholder).1,
        hstopped.trans (stopped_of_composed hc hphase hholder).2⟩ }

theorem ownerGranted_composed (hc : t.Composed) (hphase : t.election.phase = .requested)
    (term : TermId) : (t.ownerGranted term).Composed :=
  Tab.Composed.act (composed_withElection hc (by simp [hphase]) rfl hc.owner fun _ heq =>
    by cases heq)

theorem lockRefused_composed (hc : t.Composed) (hphase : ∀ term, t.election.phase ≠ .owner term) :
    t.lockRefused.Composed := by
  refine composed_withElection hc hphase rfl hc.owner fun term heq => ?_
  dsimp only at heq
  split at heq <;> cases heq

theorem termLetGo_composed (hc : t.Composed) {term : TermId}
    (hphase : t.election.phase = .leaving term true) :
    (t.termLetGo term).Composed :=
    composed_withElection hc (by simp [hphase]) rfl hc.owner fun _ heq => by cases heq

theorem ownerLetGo_composed (hc : t.Composed) {term : TermId}
    (hphase : t.election.phase = .leaving term false) : t.ownerLetGo.Composed :=
  composed_withElection hc (by simp [hphase]) rfl (fun heq => by cases heq)
    fun _ heq => by cases heq

/-- What the grant of a term's lock comes to: the tab leaves at once, or owns the port, or starts
its term too. -/
theorem termGranted_cases (t : Tab) (config : TabConfig) (term : TermId) :
    t.election.isStopped = true ∧
      t.termGranted config term =
        { t with election := { t.election with phase := .leaving term true } } ∨
    t.election.isStopped = false ∧ t.isReleased = true ∧
      t.termGranted config term =
        { t with election := { t.election with phase := .owner term, isOwner := true } } ∨
    t.election.isStopped = false ∧ t.isReleased = false ∧
      t.termGranted config term = { t with
        election := { t.election with phase := .owner term, isOwner := true }
        holder := some (.init term)
        stack := .takeOwn term :: t.stack
        outbox := t.outbox ++
          [.send ⟨config.clientId, .all, .ownerClaimed term config.maxTabs⟩] } := by
  unfold Tab.termGranted
  by_cases hstopped : t.election.isStopped = true
  · exact Or.inl ⟨hstopped, if_pos hstopped⟩
  · have hrunning : t.election.isStopped = false := by simpa using hstopped
    rw [if_neg hstopped]
    by_cases hreleased : t.isReleased = true
    · exact Or.inr (Or.inl ⟨hrunning, hreleased, if_pos hreleased⟩)
    · exact Or.inr (Or.inr ⟨hrunning, by simpa using hreleased, if_neg hreleased⟩)

theorem termGranted_composed {config : TabConfig} (hc : t.Composed) (hidle : t.stack = [])
    {term : TermId}
    (hphase : t.election.phase = .locking term) : (t.termGranted config term).Composed := by
  have hnot : ∀ other, t.election.phase ≠ .owner other := by simp [hphase]
  have hwithdrawn : t.election.isStopped = false → t.isWithdrawn = false := fun hrunning => by
    by_contra hwithdrawn
    obtain hin | hstopped := hc.withdraws (by simpa using hwithdrawn)
    · rw [hidle] at hin
      cases hin
    · rw [hrunning] at hstopped
      cases hstopped
  obtain ⟨hstopped, heq⟩ | ⟨hrunning, hreleased, heq⟩ | ⟨hrunning, hreleased, heq⟩ :=
    termGranted_cases t config term
  · rw [heq]
    exact composed_withElection hc hnot rfl hc.owner fun _ heq => by cases heq
  · rw [heq]
    exact composed_withElection hc hnot rfl (fun _ => hwithdrawn hrunning) fun _ _ => rfl
  · rw [heq]
    have hpart : ({ t with
        election := { t.election with phase := .owner term, isOwner := true } } : Tab).Composed :=
      composed_withElection hc hnot rfl (fun _ => hwithdrawn hrunning) fun _ _ => rfl
    exact
      { hpart with
        withdrawing := fun hin =>
          hpart.withdrawing ((List.mem_cons.mp hin).resolve_left fun heq => by cases heq)
        withdraws := fun hw => (hpart.withdraws hw).imp_left (List.mem_cons_of_mem _)
        serving := fun h hholder _ => by
          obtain rfl : Holder.init term = h := Option.some.inj hholder
          exact ⟨rfl, hrunning⟩
        port := fun h hholder => by
          obtain rfl : Holder.init term = h := Option.some.inj hholder
          exact Or.inl rfl }

/-! ### every state between two moves -/

theorem Grounded.withLocks (hs : s.Grounded) (ownerLock : WebLock ClientId)
    (termLock : TermClaim → WebLock TermLockUse)
    (granted : List ClientId) : ({ s with ownerLock, termLock, granted } : System).Grounded :=
    { hs with }

theorem Aside.grounded (h : Aside s s') (hs : s.Grounded) : s'.Grounded := by
  refine ⟨fun tab => ?_, fun tab => ?_, fun tab => ?_, fun sender receiver message hmem => ?_⟩
  · rw [h.tabs]
    exact hs.outbox tab
  · rw [h.tabs]
    exact hs.composed tab
  · rw [h.tabs]
    exact hs.applying tab
  · exact hs.channel sender receiver message ((h.channel sender receiver).mem hmem)

/-- **Every move keeps the ground.** -/
theorem Move.grounded (hm : Move settings discipline s s') (hs : s.Grounded) : s'.Grounded := by
  have hsilent : ∀ {tab : ClientId} {t : Tab}, t.outbox = [] → ∀ message, .send message ∈ t.outbox →
      message.sender = tab ∧ message.target ≠ .client tab := fun hempty _ hmem => by
    rw [hempty] at hmem
    cases hmem
  cases hm with
  | aside _ haside => exact haside.grounded hs
  | crashes tab => exact { hs with }
  | acts tab hlive t' hmove =>
    refine hs.setTab (hmove.composed (hs.composed tab)) (fun message hmem => ?_)
      fun message hmem => ?_
    · exact hs.applying tab message (hmove.applying.mem hmem)
    · exact hmove.sends (hs.outbox tab) (hs.applying tab) hmem
  | hears sender receiver hlive hidle message rest hchannel t' hrest =>
    obtain ⟨hself, hne⟩ := hs.channel sender receiver message (hchannel ▸ List.mem_cons_self)
    have hpopped : ({ s with
      channel := Function.update s.channel sender
        (Function.update (s.channel sender) receiver rest) } :
        System).Grounded := by
      refine { hs with channel := fun sender' receiver' message' hmem => ?_ }
      refine hs.channel sender' receiver' message' ?_
      simp only [Function.update_apply] at hmem
      split at hmem
      · next heq =>
        subst heq
        rw [Function.update_apply] at hmem
        split at hmem
        · next heq =>
          subst heq
          rw [hchannel]
          exact List.mem_cons_of_mem _ hmem
        · exact hmem
      · exact hmem
    refine hpopped.setTab (hrest.composed (hs.composed receiver))
      (fun message' hmem => ?_) (hsilent ?_)
    · obtain hmem | hmem := List.mem_append.mp (hrest.applying.mem hmem)
      · rw [List.mem_singleton.mp hmem, hself]
        exact hne
      · exact hs.applying receiver message' hmem
    · rw [hrest.outbox, hs.outbox receiver]
      rfl
  | grantsOwner tab hlive hphase lock hgrant =>
    refine (hs.withLocks lock s.termLock (s.granted ++ [tab])).setTab
        (ownerGranted_composed (hs.composed tab) hphase _)
      (hs.applying tab) fun message hmem => ?_
    have hmem : Action.send message ∈ (s.tabs tab).outbox ++ [.requestTermLock s.granted.length] :=
      hmem
    rw [hs.outbox tab, List.nil_append, List.mem_singleton] at hmem
    cases hmem
  | refusesOwner tab hlive hphase =>
    exact (hs.withLocks _ s.termLock s.granted).setTab
        (lockRefused_composed (hs.composed tab) (by simp [hphase])) (hs.applying tab)
      (hsilent (hs.outbox tab))
  | grantsTerm tab hlive hidle term hphase lock hgrant =>
    refine (hs.withLocks s.ownerLock _ s.granted).setTab
      (termGranted_composed (hs.composed tab) hidle hphase) ?_ fun message hmem => ?_
    · obtain ⟨-, heq⟩ | ⟨-, -, heq⟩ | ⟨-, -, heq⟩ :=
        termGranted_cases (s.tabs tab) (config settings tab) term
      · rw [heq]
        exact hs.applying tab
      · rw [heq]
        exact hs.applying tab
      · rw [heq]
        exact hs.applying tab
    · obtain ⟨-, heq⟩ | ⟨-, -, heq⟩ | ⟨-, -, heq⟩ :=
        termGranted_cases (s.tabs tab) (config settings tab) term
      · rw [heq] at hmem
        exact hsilent (hs.outbox tab) message hmem
      · rw [heq] at hmem
        exact hsilent (hs.outbox tab) message hmem
      · rw [heq] at hmem
        have hmem : Action.send message ∈ (s.tabs tab).outbox ++ [_] := hmem
        rw [hs.outbox tab, List.nil_append, List.mem_singleton] at hmem
        obtain rfl := Action.send.inj hmem
        exact ⟨rfl, by simp⟩
  | refusesTerm tab hlive term hphase =>
    exact (hs.withLocks _ _ s.granted).setTab
        (lockRefused_composed (hs.composed tab) (by simp [hphase])) (hs.applying tab)
      (hsilent (hs.outbox tab))
  | letsTermGo tab hlive term hphase =>
    exact (hs.withLocks s.ownerLock _ s.granted).setTab
        (termLetGo_composed (hs.composed tab) hphase) (hs.applying tab)
      (hsilent (hs.outbox tab))
  | letsOwnerGo tab hlive term hphase =>
    exact (hs.withLocks _ s.termLock s.granted).setTab
        (ownerLetGo_composed (hs.composed tab) hphase) (hs.applying tab)
      (hsilent (hs.outbox tab))

theorem Moves.grounded (hm : Moves settings discipline s s') (hs : s.Grounded) : s'.Grounded := by
  induction hm with
  | refl => exact hs
  | tail _ hmove ih => exact hmove.grounded ih

/-! ### every step is a sequence of moves -/

theorem turn_eq_some {f : Tab → Option Tab} (h : s.turn settings tab f = some s') :
    s.isCrashed tab = false ∧
      (s.tabs tab).stack = [] ∧ ∃ t', f (s.tabs tab) = some t' ∧ s' = s.setTab settings tab t' := by
  unfold turn at h
  split at h
  · next hguard =>
    obtain ⟨t', ht', rfl⟩ := Option.map_eq_some_iff.mp h
    exact ⟨hguard.1, hguard.2, t', ht', rfl⟩
  · cases h

theorem callback_eq_some {f : Tab → Tab} (h : s.callback settings tab f = some s') :
    s.isCrashed tab = false ∧ s' = s.setTab settings tab (f (s.tabs tab)) := by
  unfold callback at h
  split at h
  · next hguard => exact ⟨hguard.1, (Option.some.inj h).symm⟩
  · cases h

theorem supervisorCallback_eq_some {f : Tab → Option Tab}
    (h : s.supervisorCallback settings tab f = some s') :
    s.isCrashed tab = false ∧ ∃ t', f (s.tabs tab) = some t' ∧ s' = s.setTab settings tab t' := by
  unfold supervisorCallback at h
  split at h
  · next hguard =>
    obtain ⟨t', ht', rfl⟩ := Option.map_eq_some_iff.mp h
    exact ⟨hguard.1, t', ht', rfl⟩
  · cases h

/-- **What a tab does is done by its moves.** -/
theorem acts_moves (hs : s.Grounded) (hlive : s.isCrashed tab = false)
    (hm : Tab.MakesMoves (config settings tab) discipline (s.tabs tab) t') :
    Moves settings discipline s (s.setTab settings tab t') := by
  induction hm with
  | refl =>
    have hsame : s.setTab settings tab (s.tabs tab) = s := by
      rw [setTab_eq, hs.outbox tab]
      show ({ s with
        tabs := Function.update s.tabs tab { s.tabs tab with outbox := [] } } : System) = s
      rw [← hs.outbox tab]
      exact congrArg (fun tabs => ({ s with tabs } : System)) (Function.update_eq_self tab s.tabs)
    rw [hsame]
  | tail _ hmove ih =>
    rename_i t₁ t₂ _
    obtain ⟨deeds, houtbox, hflushed⟩ := hmove.flush
    obtain ⟨htabs, hcrashed, -⟩ := setTab_same settings s tab t₁
    refine ih.tail ?_
    rw [← setTab_setTab s tab houtbox]
    refine .acts tab (by rw [hcrashed]; exact hlive) _ ?_
    rw [htabs, Function.update_self]
    exact hflushed

theorem turn_moves (hs : s.Grounded) {f : Tab → Option Tab} (h : s.turn settings tab f = some s')
    (hf : ∀ t', f (s.tabs tab) = some t' →
      Tab.MakesMoves (config settings tab) discipline (s.tabs tab) t') :
      Moves settings discipline s s' := by
  obtain ⟨hlive, -, t', ht', rfl⟩ := turn_eq_some h
  exact acts_moves hs hlive (hf t' ht')

/-- An input of the terms other than a message. -/
theorem input_moves (hs : s.Grounded) {input : TermInput}
    (hinput : ∀ message, input ≠ .message message)
    (h : s.turn settings tab (fun t => some (t.handleTerms input)) = some s') :
    Moves settings discipline s s' :=
  turn_moves hs h fun _ ht' => Option.some.inj ht' ▸ Tab.input_makesMoves (hs.composed tab) hinput

theorem held_updateTermLock {claim : TermClaim} {f : WebLock TermLockUse → WebLock TermLockUse}
    {other : TermClaim} {r : LockRequest TermLockUse}
    (hf : r ∈ (s.termLock claim).held → r ∈ (f (s.termLock claim)).held)
    (h : r ∈ (s.termLock other).held) :
    r ∈ ((s.updateTermLock claim f).termLock other).held := by
  simp only [updateTermLock, Function.update_apply]
  split
  · next heq =>
    subst heq
    exact hf h
  · exact h

theorem aside_updateTermLock {claim : TermClaim} {f : WebLock TermLockUse → WebLock TermLockUse}
    (hf : ∀ tab, ⟨.own tab, true⟩ ∈ (s.termLock claim).held →
      ⟨.own tab, true⟩ ∈ (f (s.termLock claim)).held)
    (hsound : TermLockSound (s.termLock claim) → TermLockSound (f (s.termLock claim))) :
    Aside s (s.updateTermLock claim f) :=
  ⟨rfl, rfl, rfl, rfl, rfl, fun _ _ => List.Sublist.refl _, fun _ tab =>
    held_updateTermLock (hf tab),
    fun _ => sound_updateTermLock hsound⟩

theorem Aside.withQueries (h : Aside s s') (calls : ClientId → List LockCall)
    (answers : ClientId → List LockAnswer)
    (queries : ClientId → List LockQuery) : Aside s { s' with calls, answers, queries } :=
    { h with }

theorem aside_refl (s : System) : Aside s s :=
  ⟨rfl, rfl, rfl, rfl, rfl, fun _ _ => List.Sublist.refl _, fun _ _ h => h, fun _ h => h⟩

theorem Aside.moves (h : Aside s s') : Moves settings discipline s s' :=
  Relation.ReflTransGen.single (.aside s' h)

theorem held_letGo {ι : Type} [DecidableEq ι] {lock : WebLock ι} {id : ι} {r : LockRequest ι}
    (hne : r.id ≠ id) (h : r ∈ lock.held) :
    r ∈ (lock.letGo id).held := List.mem_filter.mpr ⟨h, decide_eq_true hne⟩

theorem held_grant {ι : Type} [DecidableEq ι] {lock lock' : WebLock ι} {id : ι} {r : LockRequest ι}
    (hgrant : lock.grant id = some lock')
    (h : r ∈ lock.held) : r ∈ lock'.held := by
  obtain ⟨_, -, -, -, hheld⟩ := WebLock.grant_eq_some.mp hgrant
  exact hheld ▸ List.mem_append_left _ h

theorem answerQuery_moves {key : EntryId} {claim : TermClaim} {isEnding : Bool}
    (h : s.answerQuery tab key claim isEnding = some s') :
    Moves settings discipline s s' := by
  unfold answerQuery at h
  split at h
  · exact Option.some.inj h ▸ ((aside_refl s).withQueries s.calls s.answers _).moves
  · cases h

theorem hears_moves (hs : s.Grounded) {sender receiver : ClientId}
    (hlive : s.isCrashed receiver = false) (hidle : (s.tabs receiver).stack = [])
    {message : ProtocolMessage} {rest : List ProtocolMessage}
    (hchannel : s.channel sender receiver = message :: rest) :
    Moves settings discipline s (({ s with
      channel := Function.update s.channel sender
        (Function.update (s.channel sender) receiver rest) } : System).setTab settings receiver
          ((s.tabs receiver).handleMessage message)) := by
  refine (Move.hears (s := s) sender receiver hlive hidle message rest hchannel _ ?_).moves
  have hignored : Tab.Rest (config settings receiver) [message] (s.tabs receiver)
      (s.tabs receiver) [] :=
    { (Tab.refl_rest (s.tabs receiver) : Tab.Rest (config settings receiver) [] _ _ []) with
      applying := List.sublist_append_right _ _ }
  have hheard : Tab.Rest (config settings receiver) [message] (s.tabs receiver)
      ((s.tabs receiver).handleTerms (.message message)) [] := by
    obtain ⟨hnot, -⟩ | ⟨message', heq, hrest⟩ :=
      Tab.handleTerms_rest (config settings receiver) (s.tabs receiver) (hs.composed receiver)
        (.message message)
    · exact absurd rfl (hnot message)
    · obtain rfl := TermInput.message.inj heq
      exact hrest
  obtain heq | heq := Tab.handleMessage_cases (s.tabs receiver) message
  · rw [heq]
    exact hignored
  · rw [heq]
    exact hheard

/-! ### what the lock manager does with a watch, and what the bus loses -/

theorem aside_watch (s : System) (tab : ClientId) (claim : TermClaim) (key : EntryId) :
    Aside s (s.updateTermLock claim fun lock => lock.request ⟨.watch tab key, false⟩) :=
  aside_updateTermLock (fun _ h => h) fun h => h.request fun _ heq => by cases heq

theorem aside_watchGranted {claim : TermClaim} {key : EntryId} {lock : WebLock TermLockUse}
    (hgrant : (s.termLock claim).grant (.watch tab key) = some lock) :
    Aside s (s.updateTermLock claim fun _ => lock) :=
  aside_updateTermLock (fun _ hheld => held_grant hgrant hheld) fun h => h.grant hgrant

theorem aside_watchLetGo (s : System) (tab : ClientId) (claim : TermClaim) (key : EntryId) :
    Aside s (s.updateTermLock claim fun lock => lock.letGo (.watch tab key)) :=
  aside_updateTermLock (fun _ hheld => held_letGo (by simp) hheld) fun h => h.letGo _

theorem aside_goodbye {claim : TermClaim} {lock : WebLock TermLockUse}
    (hgrant : (s.termLock claim).grant (.goodbye tab) = some lock) :
    Aside s (s.updateTermLock claim fun _ => lock.letGo (.goodbye tab)) :=
  aside_updateTermLock (fun _ hheld => held_letGo (by simp) (held_grant hgrant hheld)) fun h =>
    (h.grant hgrant).letGo _

theorem aside_lose (s : System) (sender receiver : ClientId) (index : Nat) : Aside s { s with
    channel := Function.update s.channel sender
      (Function.update (s.channel sender) receiver
        ((s.channel sender receiver).eraseIdx index)) } := by
  refine ⟨rfl, rfl, rfl, rfl, rfl, fun sender' receiver' => ?_, fun _ _ h => h, fun _ h => h⟩
  simp only [Function.update_apply]
  split
  · next heq =>
    subst heq
    rw [Function.update_apply]
    split
    · next heq =>
      subst heq
      exact List.eraseIdx_sublist _ _
    · exact List.Sublist.refl _
  · exact List.Sublist.refl _

/-- Whether a step keeps to what is asked of the run. -/
structure Abides (discipline : Discipline) (s : System) (event : SystemEvent) : Prop where
  takes : ∀ tab, event = .goOn tab → ∀ message t₀, (s.tabs tab).Hears message t₀ →
    discipline.takes (s.tabs tab).holder message
  answers : ∀ tab id, event = .port tab (.jobReported id) →
    ∀ h, (s.tabs tab).holder = some h → ∀ ended,
    h.ended.find? (fun ended => ended.job.id = id) = some ended → discipline.Allows h ended

theorem abides_lax (event : SystemEvent) : Abides .lax s event :=
  ⟨fun _ _ _ _ _ => trivial, fun _ _ _ _ _ _ _ _ _ _ => trivial⟩

theorem port_moves (hs : s.Grounded) {event : PortEvent} {t' : Tab}
    (habides : Abides discipline s (.port tab event))
    (h : ((s.tabs tab).holder.bind fun h =>
      (s.tabs tab).portStep (config settings tab) h event) = some t') :
    Tab.MakesMoves (config settings tab) discipline (s.tabs tab) t' := by
  obtain ⟨holder, hholder, hport⟩ := Option.bind_eq_some_iff.mp h
  exact Tab.portStep_makesMoves (hs.composed tab) hholder (fun id heq =>
    habides.answers tab id (by rw [heq]) holder hholder) hport

/-- **Every step of the system is a sequence of moves.** -/
theorem step_moves {event : SystemEvent} (hs : s.Grounded) (habides : Abides discipline s event)
    (h : s.step settings event = some s') : Moves settings discipline s s' := by
  cases event with
  | join tab =>
    simp only [step] at h
    refine turn_moves hs h fun t' ht' => ?_
    split at ht'
    · cases ht'
    · exact Option.some.inj ht' ▸ Tab.join_makesMoves
  | send tab payload =>
    simp only [step] at h
    obtain ⟨hlive, rfl⟩ := callback_eq_some h
    exact acts_moves hs hlive Tab.sendPayload_makesMoves
  | release tab =>
    simp only [step] at h
    obtain ⟨hlive, rfl⟩ := callback_eq_some h
    refine acts_moves hs hlive ?_
    split
    · exact .refl
    · exact Tab.release_makesMoves
  | retry tab =>
    simp only [step] at h
    obtain ⟨hlive, rfl⟩ := callback_eq_some h
    refine acts_moves hs hlive ?_
    split
    · exact .refl
    · exact (Tab.send_rest rfl fun _ heq => by cases heq).makesMoves
  | crash tab =>
    simp only [step] at h
    split at h
    · cases h
    · exact Option.some.inj h ▸ (Move.crashes tab).moves
  | goOn tab =>
    simp only [step] at h
    split at h
    · cases h
    next hlive =>
    obtain ⟨t', ht', rfl⟩ := Option.map_eq_some_iff.mp h
    exact acts_moves hs (by simpa using hlive)
      (Tab.goOn_makesMoves (hs.composed tab) (hs.applying tab) (habides.takes tab rfl) ht')
  | writeDeadline tab requestId =>
    simp only [step] at h
    exact turn_moves hs h fun t' ht' => Option.some.inj ht' ▸ Tab.writeDeadline_makesMoves
  | port tab event =>
    cases event with
    | status status | data payload text | error error =>
      simp only [step] at h
      obtain ⟨hlive, t', ht', rfl⟩ := supervisorCallback_eq_some h
      exact acts_moves hs hlive (port_moves hs habides ht')
    | opened | lost | restated | jobStarted isExpired | askExpired | jobWentOn | chunkTaken
    | chunkFailed | chunkTimedOut
    | stallEnded isFailed | jobExpired id | jobReported id | tornDown | writesAnswered
    | answersGivenUp =>
      simp only [step] at h
      exact turn_moves hs h fun t' ht' => port_moves hs habides ht'
  | ownerGranted tab =>
    simp only [step] at h
    split at h
    · next hphase =>
      obtain ⟨lock, hgrant, h⟩ := Option.bind_eq_some_iff.mp h
      obtain ⟨hlive, -, t', ht', rfl⟩ := turn_eq_some h
      obtain rfl := Option.some.inj ht'
      exact (Move.grantsOwner (s := s) tab hlive hphase lock hgrant).moves
    · cases h
  | ownerRefused tab =>
    simp only [step] at h
    split at h
    · next hphase =>
      obtain ⟨hlive, -, t', ht', rfl⟩ := turn_eq_some h
      obtain rfl := Option.some.inj ht'
      exact (Move.refusesOwner (s := s) tab hlive hphase).moves
    · cases h
  | electionRetried tab =>
    simp only [step] at h
    refine turn_moves hs h fun t' ht' => ?_
    split at ht'
    · exact Option.some.inj ht' ▸ Tab.startElection_makesMoves
    · cases ht'
  | termGranted tab =>
    simp only [step] at h
    split at h
    · next term hphase =>
      obtain ⟨lock, hgrant, h⟩ := Option.bind_eq_some_iff.mp h
      obtain ⟨hlive, hidle, t', ht', rfl⟩ := turn_eq_some h
      obtain rfl := Option.some.inj ht'
      exact (Move.grantsTerm (s := s) tab hlive hidle term hphase lock hgrant).moves
    · cases h
  | termRefused tab =>
    simp only [step] at h
    split at h
    · next term hphase =>
      obtain ⟨hlive, -, t', ht', rfl⟩ := turn_eq_some h
      obtain rfl := Option.some.inj ht'
      exact (Move.refusesTerm (s := s) tab hlive term hphase).moves
    · cases h
  | electionStopped tab =>
    simp only [step] at h
    refine turn_moves hs h fun t' ht' => ?_
    split at ht'
    · next hguard => exact Option.some.inj ht' ▸ (Tab.Move.stops hguard.2).makesMoves
    · cases ht'
  | termLetGo tab =>
    simp only [step] at h
    split at h
    · next term hphase =>
      obtain ⟨hlive, -, t', ht', rfl⟩ := turn_eq_some h
      obtain rfl := Option.some.inj ht'
      exact (Move.letsTermGo (s := s) tab hlive term hphase).moves
    · cases h
  | ownerLetGo tab =>
    simp only [step] at h
    split at h
    · next term hphase =>
      obtain ⟨hlive, -, t', ht', rfl⟩ := turn_eq_some h
      obtain rfl := Option.some.inj ht'
      exact (Move.letsOwnerGo (s := s) tab hlive term hphase).moves
    · cases h
  | releaseEnded tab =>
    simp only [step] at h
    refine turn_moves hs h fun t' ht' => ?_
    split at ht'
    · exact Option.some.inj ht' ▸ Tab.releaseEnd_makesMoves (hs.composed tab)
    · cases ht'
  | lockCalled tab call =>
    simp only [step] at h
    split at h
    · cases call with
      | check key claim =>
        exact Option.some.inj h ▸ ((aside_refl s).withQueries _ _ s.queries).moves
      | watch key claim =>
        have haside := (aside_watch s tab claim key).withQueries
        exact Option.some.inj h ▸ (haside _ s.answers s.queries).moves
    · cases h
  | checkRefused tab key claim =>
    simp only [step] at h
    split at h
    · exact Option.some.inj h ▸ ((aside_refl s).withQueries _ _ s.queries).moves
    · cases h
  | checkAnswered tab answer =>
    simp only [step] at h
    split at h
    · have haside : Aside s
        { s with answers := Function.update s.answers tab ((s.answers tab).erase answer) } :=
        (aside_refl s).withQueries s.calls _ s.queries
      have hground := haside.grounded hs
      exact haside.moves.trans (input_moves hground (fun _ heq => by cases heq) h)
    · cases h
  | watchGranted tab key claim =>
    simp only [step] at h
    split at h
    · cases h
    obtain ⟨lock, hgrant, rfl⟩ := Option.map_eq_some_iff.mp h
    exact ((aside_watchGranted hgrant).withQueries s.calls s.answers _).moves
  | locksListed tab key claim | listingFailed tab key claim =>
    simp only [step] at h
    exact answerQuery_moves h
  | watchAnswered tab key claim isEnding =>
    simp only [step] at h
    split at h
    · have haside := (aside_watchLetGo s tab claim key).withQueries s.calls s.answers
        (Function.update s.queries tab
          ((s.queries tab).erase ⟨key, claim, some isEnding⟩))
      have hground := haside.grounded hs
      exact haside.moves.trans (input_moves hground (fun _ heq => by cases heq) h)
    · cases h
  | goodbyeGranted tab term =>
    simp only [step] at h
    obtain ⟨lock, hgrant, rfl⟩ := Option.map_eq_some_iff.mp h
    exact (aside_goodbye hgrant).moves
  | deliver sender receiver =>
    simp only [step] at h
    split at h
    · cases h
    next message rest hchannel =>
    obtain ⟨hlive, hidle, t', ht', rfl⟩ := turn_eq_some h
    exact Option.some.inj ht' ▸ hears_moves hs hlive hidle hchannel
  | lose sender receiver index =>
    simp only [step] at h
    split at h
    · exact Option.some.inj h ▸ (aside_lose s sender receiver index).moves
    · cases h
  | busReconnected tab =>
    simp only [step] at h
    exact turn_moves hs h fun t' ht' => Option.some.inj ht' ▸ Tab.busReconnected_makesMoves

/-- What every move keeps holds after every run. -/
theorem run_moves {es : List SystemEvent} (hrun : (systemRuns settings).run es = some s) :
    Moves settings .lax .init s ∧ s.Grounded := by
  refine TransitionSystem.run_invariant_all (T := systemRuns settings) (P := fun s =>
      Moves settings .lax .init s ∧ s.Grounded)
    ⟨.refl, init_grounded⟩ (fun s e s' hs hstep => ?_) hrun
  have hmoves : Moves settings .lax s s' := step_moves hs.2 (abides_lax e) hstep
  exact ⟨hs.1.trans hmoves, hmoves.grounded hs.2⟩

/-- **The invariant rule for moves.** -/
theorem moves_invariant {P : System → Prop}
    (hmove : ∀ s s', s.Grounded → P s → Move settings discipline s s' → P s')
    (hm : Moves settings discipline s s') (hs : s.Grounded) (hP : P s) : P s' := by
  induction hm with
  | refl => exact hP
  | tail hmoves hlast ih => exact hmove _ _ (Moves.grounded hmoves hs) ih hlast

end System

end SerialBroker
