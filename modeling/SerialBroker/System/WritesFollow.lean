import SerialBroker.System.IssuedWrites

/-!
# Every write is entrusted as it should be

Whatever happens to all the tabs is a sequence of steps of every write: the moves of its issuer,
those of the ports, and what the bus, the locks and a crash do. So what `Entrusting` says of a task
holds of every write in every run that keeps to what it asks.
-/

namespace SerialBroker

open Entrusting.State (Step Steps)

namespace System

variable {settings : ClientId → TabSettings} {discipline : Discipline} {s s' : System}
  {tab : ClientId} {t' : Tab} {key : WriteKey}

/-- Some of what is on its way is lost, and nothing else changes. -/
theorem loses_follows (hsame : s'.view key =
    { s.view key with reports := (s'.view key).reports, letters := (s'.view key).letters })
    (hreports : ∀ other, ((s'.view key).reports other).Sublist ((s.view key).reports other))
    (hletters : ∀ other, ((s'.view key).letters other).Sublist ((s.view key).letters other)) :
    Steps writeRules (s.view key) (s'.view key) := by
  rw [hsame]
  exact .single (.loses _ _ hreports hletters)

theorem Aside.follows (haside : Aside s s') : Steps writeRules (s.view key) (s'.view key) := by
  refine loses_follows ?_ (fun other => ?_) fun other => ?_
  · refine Entrusting.State.ext ?_ ?_ ?_ rfl rfl ?_ ?_ ?_
    · simp only [view, haside.tabs]
    · simp only [view, haside.tabs, haside.isCrashed]
    · simp only [view, haside.tabs]
    · simp only [view, haside.log]
    · simp only [view, haside.log]
    · simp only [view, haside.log]
  · simp only [view, haside.tabs]
    exact reportsIn_sublist ((haside.channel _ _).append_left _)
  · simp only [view, haside.tabs]
    exact lettersIn_sublist ((haside.channel _ _).append_left _)

/-- A tab dies, and with it the wait for the outcomes of its writes. -/
theorem crash_follows (s : System) (tab : ClientId) :
    Steps writeRules (s.view key) ((s.crash tab).view key) := by
  by_cases hown : tab = key.origin
  · have hdies : (s.crash tab).view key = { s.view key with pending := none } := by
      refine Entrusting.State.ext rfl ?_ rfl rfl rfl rfl rfl rfl
      simp [view, crash, hown]
    rw [hdies]
    exact .single .dies
  · have hsame : (s.crash tab).view key = s.view key := by
      refine Entrusting.State.ext rfl ?_ rfl rfl rfl rfl rfl rfl
      simp [view, crash, Ne.symm hown]
    rw [hsame]

/-- A tab other than the issuer does something at its port. -/
theorem peer_follows (hne : tab ≠ key.origin)
    (hsender : ∀ message, .send message ∈ t'.outbox → message.sender = tab)
    (happlying : t'.applying.Sublist (s.tabs tab).applying)
    (hserved : Steps writeRules (s.view key) (served (s.view key) tab t' key)) :
    Steps writeRules (s.view key) ((s.setTab settings tab t').view key) := by
  rw [view_setTab_peer hne hsender]
  refine hserved.tail (.loses _ _ (fun _ => List.Sublist.refl _) fun other => ?_)
  simp only [served, Function.update_apply]
  split
  · next heq =>
    rw [heq]
    exact lettersIn_sublist (happlying.append_right _)
  · exact List.Sublist.refl _

/-- **What a tab does is a sequence of steps of every write.** -/
theorem acts_follows (hs : s.Grounded) (hw : ∀ tab, (s.tabs tab).WritesIssued)
    (hports : ∀ tab h, (s.tabs tab).holder = some h → h.Sound tab)
    (htakes : ∀ holder message, discipline.takes holder message →
      answersAsked holder message = true)
    (hforgets : discipline.forgets key → (s.view key).pending = none ∧ (s.view key).task ≠ none)
    (hlive : s.isCrashed tab = false)
    (hm : (s.tabs tab).Move (config settings tab) discipline t') :
    Steps writeRules (s.view key) ((s.setTab settings tab t').view key) := by
  have houtbox := hs.outbox tab
  have hsent : ∀ message, .send message ∈ t'.outbox →
      message.sender = tab ∧ message.target ≠ .client tab :=
    fun message hmem => hm.sends houtbox (hs.applying tab) hmem
  by_cases hown : tab = key.origin
  · subst hown
    rw [view_setTab_issuer hs hlive hsent hm.applying]
    by_cases hbegins : Tab.BeginsOwn (config settings key.origin) key (s.tabs key.origin) t'
    · exact beginsOwn_steps hs (hw _) hlive (hports _) hbegins
    · exact Issuing.steps ⟨hs, hw _, hlive, hports _, htakes, hforgets, hm, hbegins⟩
  · refine peer_follows hown (fun message hmem => (hsent message hmem).1) hm.applying ?_
    refine (hm.serves key (s.view key) houtbox (hports tab) (hs.applying tab) htakes hforgets rfl
      (fun letter hmem => ?_) fun heq => absurd heq.symm hown).resolve_right ?_
    · show letter ∈ lettersIn key ((s.tabs tab).applying ++ s.channel key.origin tab)
      rw [lettersIn_append]
      exact List.mem_append_left _ hmem
    · rintro ⟨h, job, rest, connection, w, -, -, -, -, horigin, -⟩
      exact hown horigin.symm

/-- A tab does what concerns neither its writes nor its port. -/
theorem quiet_follows (hs : s.Grounded) (hlive : s.isCrashed tab = false)
    (hsame : t'.writes = (s.tabs tab).writes ∧
      t'.issued = (s.tabs tab).issued ∧ t'.holder = (s.tabs tab).holder)
      (happlying : t'.applying.Sublist (s.tabs tab).applying)
    (hdeeds : ∀ deed ∈ t'.outbox, ∃ term, deed = .requestTermLock term) :
    Steps writeRules (s.view key) ((s.setTab settings tab t').view key) := by
  obtain ⟨hwrites, hissued, hholder⟩ := hsame
  have hsent : ∀ message, .send message ∉ t'.outbox := fun message hmem => by
    obtain ⟨term, heq⟩ := hdeeds _ hmem
    cases heq
  have hsilent : IsSilent key t'.outbox := fun deed hmem => by
    obtain ⟨term, rfl⟩ := hdeeds deed hmem
    exact ⟨rfl, rfl, fun _ heq => by cases heq⟩
  have hunsaid : IsUnsaid key.requestId t'.outbox := fun deed hmem => by
    obtain ⟨term, rfl⟩ := hdeeds deed hmem
    exact ⟨rfl, fun _ heq => by cases heq⟩
  have hserved : served (s.view key) tab t' key = s.view key :=
    served_silent (congrArg (Option.map _) hholder.symm) hsilent fun message hmem =>
      absurd hmem (hsent message)
  by_cases hown : tab = key.origin
  · subst hown
    rw [view_setTab_issuer hs hlive (fun message hmem => absurd hmem (hsent message)) happlying]
    refine handled_steps .refl ⟨rfl, rfl, rfl⟩ ?_ ?_ (fun other => ?_) ?_ (fun other => ?_)
      (hserved.symm ▸ .refl)
    · rw [hissued]
      rfl
    · simp only [view, hlive, Bool.false_eq_true, if_false, Tab.pending?, hwrites]
    · rw [lettersBy_unsaid hunsaid, List.append_nil]
    · rw [settled_unsaid hunsaid, List.append_nil]
    · exact reportsIn_sublist (happlying.append_right _)
  · exact peer_follows hown (fun message hmem => absurd hmem (hsent message)) happlying
      (hserved.symm ▸ .refl)

/-- A term begins, at a tab that has had none. -/
theorem opens_follows (hs : s.Grounded) (hlive : s.isCrashed tab = false) (term : TermId)
    (maxTabs : MaxTabs) (hnone : (s.tabs tab).holder = none)
    (hfresh : ∀ other h, (s.tabs other).holder = some h → h.term ≠ term)
    (hkept : t'.writes = (s.tabs tab).writes ∧
      t'.issued = (s.tabs tab).issued ∧ t'.holder = some (.init term))
      (happlying : t'.applying.Sublist (s.tabs tab).applying)
    (hbox : t'.outbox = [.send ⟨tab, .all, .ownerClaimed term maxTabs⟩]) :
    Steps writeRules (s.view key) ((s.setTab settings tab t').view key) := by
  obtain ⟨hwrites, hissued, hholder⟩ := hkept
  have hdeed : ∀ {P : Action → Prop}, P (.send ⟨tab, .all, .ownerClaimed term maxTabs⟩) →
      ∀ deed ∈ t'.outbox, P deed := fun hP deed hmem => by
    rw [hbox, List.mem_singleton] at hmem
    exact hmem ▸ hP
  have hsent : ∀ message, .send message ∈ t'.outbox →
      message.sender = tab ∧ message.target ≠ .client tab := fun message hmem => by
    rw [hbox, List.mem_singleton] at hmem
    obtain rfl := Action.send.inj hmem
    exact ⟨rfl, fun heq => by cases heq⟩
  have hsilent : IsSilent key t'.outbox := hdeed ⟨rfl, rfl, fun message heq _ => by
    obtain rfl := Action.send.inj heq
    rfl⟩
  have hunsaid : IsUnsaid key.requestId t'.outbox := hdeed ⟨rfl, fun message heq => by
    obtain rfl := Action.send.inj heq
    rfl⟩
  have hserved : Steps writeRules (s.view key) (served (s.view key) tab t' key) := by
    obtain ⟨hreports, hbegun, hparts⟩ := hsilent.lists fun message hmem => (hsent message hmem).1
    rw [served_of_holder hholder, hreports, hbegun, hparts, Entrusting.State.serve_nil]
    refine .single (.opens tab (congrArg (Option.map _) hnone) term fun other d hdesk => ?_)
    obtain ⟨h, hother, rfl⟩ := Option.map_eq_some_iff.mp hdesk
    exact hfresh other h hother
  by_cases hown : tab = key.origin
  · subst hown
    rw [view_setTab_issuer hs hlive hsent happlying]
    refine handled_steps .refl ⟨rfl, rfl, rfl⟩ ?_ ?_ (fun other => ?_) ?_ (fun other => ?_) hserved
    · rw [hissued]
      rfl
    · simp only [view, hlive, Bool.false_eq_true, if_false, Tab.pending?, hwrites]
    · rw [lettersBy_unsaid hunsaid, List.append_nil]
    · rw [settled_unsaid hunsaid, List.append_nil]
    · exact reportsIn_sublist (happlying.append_right _)
  · exact peer_follows hown (fun message hmem => (hsent message hmem).1) happlying hserved

/-- A message arrives, and the rest of the turn may apply it. -/
theorem hears_follows (hs : s.Grounded) {sender receiver : ClientId}
    (hidle : (s.tabs receiver).stack = []) {message : ProtocolMessage}
    {rest : List ProtocolMessage} (hchannel : s.channel sender receiver = message :: rest)
    (hrest : Tab.Rest (config settings receiver) [message] (s.tabs receiver) t' []) :
    Steps writeRules (s.view key) ((({ s with
    channel := Function.update s.channel sender
      (Function.update (s.channel sender) receiver rest) } :
      System).setTab settings receiver t').view key) := by
  have hsender : message.sender = sender :=
    (hs.channel sender receiver message (hchannel ▸ List.mem_cons_self)).1
  have hbox : t'.outbox = [] := hrest.outbox.trans (by rw [hs.outbox]; rfl)
  have hnone : (s.tabs receiver).applying = [] := by rw [Tab.applying, hidle]; rfl
  have happlying : t'.applying.Sublist [message] := by
    have hsub := hrest.applying
    rwa [hnone, List.append_nil] at hsub
  generalize hs₁ : ({ s with
    channel := Function.update s.channel sender
      (Function.update (s.channel sender) receiver rest) } : System) = s₁
  have hpopped : ∀ author reader, s₁.channel author reader = if author = sender ∧
      reader = receiver then rest else s.channel author reader := fun author reader => by
    subst hs₁
    simp only [Function.update_apply]
    split
    · next heq =>
      subst heq
      by_cases hto : reader = receiver
      · simp [hto]
      · simp [hto]
    · next heq => simp [heq]
  have hsame₁ : s₁.tabs = s.tabs ∧ s₁.isCrashed = s.isCrashed ∧ s₁.log = s.log :=
    hs₁ ▸ ⟨rfl, rfl, rfl⟩
  obtain ⟨htabs, hcrashed, -, hlog, -⟩ := setTab_same settings s₁ receiver t'
  have hsent : ∀ m, .send m ∈ t'.outbox → m.sender = receiver := fun m hmem => by
    rw [hbox] at hmem
    cases hmem
  have hchannels : (s₁.setTab settings receiver t').channel = s₁.channel :=
      funext fun author => funext fun reader => by
    rw [setTab_channel s₁ receiver t' hsent, hbox]
    split
    · next heq => rw [heq]; exact List.append_nil _
    · rfl
  have hlog' : (s₁.setTab settings receiver t').log = s.log := by
    rw [hlog, hbox, hsame₁.2.2]
    exact List.append_nil _
  have htab : ∀ tab, ((s₁.setTab settings receiver t').tabs tab).writes = (s.tabs tab).writes ∧
      ((s₁.setTab settings receiver t').tabs tab).issued = (s.tabs tab).issued ∧
      ((s₁.setTab settings receiver t').tabs tab).holder = (s.tabs tab).holder := fun tab => by
    rw [htabs, hsame₁.1, Function.update_apply]
    split
    · next heq => exact heq ▸ ⟨hrest.writes, hrest.issued, hrest.holder⟩
    · exact ⟨rfl, rfl, rfl⟩
  -- what is heard was at the head of the channel
  have hheard : ∀ author reader,
      (heardFrom author (((s₁.setTab settings receiver t').tabs reader).applying ++
      (s₁.setTab settings receiver t').channel author reader)).Sublist
        (heardFrom author ((s.tabs reader).applying ++ s.channel author reader)) := by
    intro author reader
    rw [hchannels, hpopped, htabs, hsame₁.1, Function.update_apply]
    by_cases hto : reader = receiver
    · subst hto
      rw [if_pos rfl, hnone, List.nil_append]
      by_cases hfrom : author = sender
      · subst hfrom
        rw [if_pos ⟨rfl, rfl⟩, hchannel]
        exact (happlying.append_right rest).filter _
      · rw [if_neg fun heq => hfrom heq.1, heardFrom, List.filter_append]
        have hforeign : t'.applying.filter (fun m => m.sender = author) = [] := by
          have hsub := happlying.filter fun m : ProtocolMessage => m.sender = author
          rw [List.filter_cons, if_neg (by simpa [hsender] using Ne.symm hfrom)] at hsub
          exact List.sublist_nil.mp hsub
        have hforeign' : ({ t' with outbox := [] } : Tab).applying.filter (fun m =>
          m.sender = author) = [] := hforeign
        rw [hforeign', List.nil_append]
        exact List.Sublist.refl _
    · rw [if_neg hto, if_neg fun heq => hto heq.2]
  refine loses_follows ?_ (fun other => (hheard other key.origin).filterMap _) fun other =>
    (hheard key.origin other).filterMap _
  refine Entrusting.State.ext ?_ ?_ ?_ rfl rfl ?_ ?_ ?_
  · simp only [view, htab]
  · simp only [view, hcrashed, hsame₁.2.1, Tab.pending?, htab]
  · simp only [view, htab]
  · simp only [view, hlog']
  · simp only [view, hlog']
  · simp only [view, hlog']

/-- **Whatever happens is a sequence of steps of every write.** -/
theorem Move.follows (hm : Move settings discipline s s') (hs : s.Grounded) (ho : Owned settings s)
    (hw : ∀ tab, (s.tabs tab).WritesIssued)
    (htakes : ∀ holder message, discipline.takes holder message →
      answersAsked holder message = true)
    (hforgets : discipline.forgets key → (s.view key).pending = none ∧ (s.view key).task ≠ none) :
    Steps writeRules (s.view key) (s'.view key) := by
  have hsilent : ∀ {tab : ClientId} {t₁ : Tab}, t₁.outbox = (s.tabs tab).outbox →
      ∀ deed ∈ t₁.outbox, ∃ term, deed = .requestTermLock term :=
    fun heq deed hmem => by
      rw [heq, hs.outbox] at hmem
      cases hmem
  cases hm with
  | aside _ haside => exact haside.follows
  | crashes tab => exact crash_follows s tab
  | acts tab hlive t' hmove => exact acts_follows hs hw ho.ports htakes hforgets hlive hmove
  | hears sender receiver hlive hidle message rest hchannel t' hrest =>
    exact hears_follows hs hidle hchannel hrest
  | grantsOwner tab hlive hphase lock hgrant =>
    refine quiet_follows (s := { s with
        ownerLock := lock
        granted := s.granted ++ [tab] }) (hs.withLocks lock s.termLock _) hlive ⟨rfl, rfl, rfl⟩
      (List.Sublist.refl _) fun deed hmem => ?_
    have hmem : deed ∈ (s.tabs tab).outbox ++ [.requestTermLock s.granted.length] := hmem
    rw [hs.outbox, List.nil_append, List.mem_singleton] at hmem
    exact ⟨_, hmem⟩
  | refusesOwner tab hlive hphase =>
    exact quiet_follows (s := { s with
        ownerLock := s.ownerLock.withdraw tab }) (hs.withLocks _ s.termLock s.granted) hlive
          ⟨rfl, rfl, rfl⟩
      (List.Sublist.refl _) (hsilent rfl)
  | grantsTerm tab hlive hidle term hphase lock hgrant =>
    have hlocked := hs.withLocks s.ownerLock
      (Function.update s.termLock (ownClaim settings tab term) lock) s.granted
    obtain ⟨-, heq⟩ | ⟨-, -, heq⟩ | ⟨hrunning, -, heq⟩ :=
      termGranted_cases (s.tabs tab) (config settings tab) term
    · rw [heq]
      exact quiet_follows (s := s.updateTermLock (ownClaim settings tab term) fun _ => lock) hlocked
          hlive ⟨rfl, rfl, rfl⟩ (List.Sublist.refl _)
        (hsilent rfl)
    · rw [heq]
      exact quiet_follows (s := s.updateTermLock (ownClaim settings tab term) fun _ => lock) hlocked
          hlive ⟨rfl, rfl, rfl⟩ (List.Sublist.refl _)
        (hsilent rfl)
    · rw [heq]
      have hnone : (s.tabs tab).holder = none := by
        cases hholder : (s.tabs tab).holder with
        | none => rfl
        | some h =>
          have hstopped := (stopped_of_composed (hs.composed tab) (by simp [hphase]) hholder).2
          rw [hrunning] at hstopped
          cases hstopped
      refine opens_follows (s := s.updateTermLock (ownClaim settings tab term) fun _ => lock)
          hlocked hlive term (settings tab).maxTabs hnone
        (fun other h hholder hterm => ?_) ⟨rfl, rfl, rfl⟩ (List.Sublist.refl _) ?_
      · have hgranted := (ho.claimed other h hholder).1
        rw [hterm, (ho.last tab term hlive (by rw [hphase]; rfl)).1] at hgranted
        obtain rfl := Option.some.inj hgranted
        have hholder : (s.tabs tab).holder = some h := hholder
        rw [hnone] at hholder
        cases hholder
      · show (s.tabs tab).outbox ++ [_] = _
        rw [hs.outbox]
        rfl
  | refusesTerm tab hlive term hphase =>
    exact quiet_follows (s := { s.updateTermLock (ownClaim settings tab term) (fun lock =>
        lock.withdraw (.own tab)) with
      ownerLock := s.ownerLock.letGo tab }) (hs.withLocks _ _ s.granted) hlive ⟨rfl, rfl, rfl⟩
        (List.Sublist.refl _) (hsilent rfl)
  | letsTermGo tab hlive term hphase =>
    exact quiet_follows (s := s.updateTermLock (ownClaim settings tab term) fun lock =>
        lock.letGo (.own tab)) (hs.withLocks s.ownerLock _ s.granted)
      hlive ⟨rfl, rfl, rfl⟩ (List.Sublist.refl _) (hsilent rfl)
  | letsOwnerGo tab hlive term hphase =>
    exact quiet_follows (s := { s with ownerLock := s.ownerLock.letGo tab })
        (hs.withLocks _ s.termLock s.granted) hlive ⟨rfl, rfl, rfl⟩
      (List.Sublist.refl _) (hsilent rfl)

end System

end SerialBroker
