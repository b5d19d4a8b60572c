import SerialBroker.Client.PortMoves
import SerialBroker.Lib.Histories
import SerialBroker.System.Moves

/-!
# One owner at a time

The ownership lock makes the terms follow each other: a term is the number of a grant, and whoever
serves one holds the lock it was granted. So the record of everything the tabs did falls into terms,
each served by one tab, opened by its claim and closed by its goodbye, with nothing of an earlier
term after it; and the goodbye comes only once every write of another tab that was begun has been
answered.
-/

namespace SerialBroker

/-- What a phase of the election means for the ownership lock. -/
def ElectionPhase.use : ElectionPhase → WebLock.Use
  | .off | .paused | .left => .none
  | .requested => .queued
  | .locking _ | .owner _ | .leaving .. => .held

/-- The term of a tab that holds the ownership lock. -/
def ElectionPhase.term? : ElectionPhase → Option TermId
  | .locking term | .owner term | .leaving term _ => some term
  | .off | .requested | .paused | .left => none

/-- A call for the ownership lock. -/
def Action.isOwnerLockCall : Action → Bool
  | .requestOwnerLock | .withdrawOwnerRequest => true
  | _ => false

namespace Tab

variable {t t' t₀ : Tab} {config : TabConfig} {discipline : Discipline} {h : Holder}
  {message : ProtocolMessage} {term : TermId}

/-- What a move of a tab does to its election. -/
inductive ElectionMove (t t' : Tab) : Prop
  | stays (hphase : t'.election.phase = t.election.phase)
      (hnone : ∀ deed ∈ t'.outbox, deed.isOwnerLockCall = false)
  | requests (hphase : t.election.phase.use = .none) (hphase' : t'.election.phase = .requested)
      (houtbox : t'.outbox = [.requestOwnerLock])
  | withdraws (hphase : t.election.phase = .requested) (hphase' : t'.election.phase = .left)
      (houtbox : t'.outbox = [.withdrawOwnerRequest])
  | leaves (term : TermId) (hphase : t.election.phase = .owner term)
      (hphase' : t'.election.phase = .leaving term true)
      (hnone : ∀ deed ∈ t'.outbox, deed.isOwnerLockCall = false)
  | ends (hphase : t.election.phase.use = .none) (hphase' : t'.election.phase = .left)
      (hnone : ∀ deed ∈ t'.outbox, deed.isOwnerLockCall = false)

/-- What `election.stop()` does, on top of what was done already. -/
theorem stopElection_move (t : Tab) (hbefore : ∀ deed ∈ t.outbox, deed.isOwnerLockCall = false)
    (hempty : t.election.phase = .requested → t.outbox = []) : ElectionMove t t.stopElection := by
  by_cases hstopped : t.election.isStopped = true
  · have hsame : t.stopElection = t := by simp [stopElection, hstopped]
    rw [hsame]
    exact .stays rfl hbefore
  cases hphase : t.election.phase with
  | requested =>
    refine .withdraws hphase (by simp [stopElection, hstopped, hphase, act]) ?_
    simp [stopElection, hstopped, hphase, act, hempty hphase]
  | off =>
    have hsame : t.stopElection =
        { t with election := { t.election with phase := .left, isStopped := true } } := by
      simp [stopElection, hstopped, hphase]
    rw [hsame]
    exact .ends (by rw [hphase]; rfl) rfl hbefore
  | paused =>
    have hsame : t.stopElection =
        { t with election := { t.election with phase := .left, isStopped := true } } := by
      simp [stopElection, hstopped, hphase]
    rw [hsame]
    exact .ends (by rw [hphase]; rfl) rfl hbefore
  | owner term =>
    have hsame : t.stopElection = { t with
        election := { t.election with phase := .leaving term true, isStopped := true } } := by
      simp [stopElection, hstopped, hphase]
    rw [hsame]
    exact .leaves term hphase rfl hbefore
  | locking | leaving | left =>
    have hsame : t.stopElection = { t with
      election :=
        { t.election with isStopped := true } } := by simp [stopElection, hstopped, hphase]
    rw [hsame]
    exact .stays rfl hbefore

theorem settle_move (t : Tab) (houtbox : t.outbox = []) (requestId : RequestId)
    (outcome : WriteOutcome) :
    ElectionMove t (t.settle requestId outcome) := by
  refine .stays (by rw [(settle_same t requestId outcome).2]) fun deed hdeed => ?_
  obtain hdeed | rfl := (settle_applying t requestId outcome).2 deed hdeed
  · rw [houtbox] at hdeed
    cases hdeed
  · rfl

theorem Hears.election (hears : t.Hears message t₀) :
    t₀.election = t.election ∧ t₀.outbox = t.outbox := by
  obtain ⟨effects, stack, hstack, rfl⟩ := hears
  exact ⟨rfl, rfl⟩

/-- **What a move does to the election.** -/
theorem Move.electionMove (hm : Move config discipline t t') (houtbox : t.outbox = [])
    (hc : t.Composed) : ElectionMove t t' := by
  have hsilent : ∀ {t₀ : Tab}, t₀.outbox = [] → ∀ deed ∈ t₀.outbox, deed.isOwnerLockCall = false :=
      fun hempty deed hdeed => by
    rw [hempty] at hdeed
    cases hdeed
  have hone : ∀ {t₀ : Tab} {action : Action}, t₀.outbox = [] → action.isOwnerLockCall = false →
      ∀ deed ∈ t₀.outbox ++ [action],
      deed.isOwnerLockCall = false := fun hempty hnot deed hdeed => by
    rw [hempty, List.nil_append] at hdeed
    rw [List.mem_singleton.mp hdeed]
    exact hnot
  cases hm with
  | rest _ deeds hrest =>
    refine .stays (by rw [hrest.election]) fun deed hdeed => ?_
    rw [hrest.outbox, houtbox] at hdeed
    have hplain := (hrest.plain deed hdeed).1
    cases deed <;> first | rfl | cases hplain
  | requests hphase hrunning =>
    have hstart : t.startElection =
        { t with election := { t.election with phase := .requested } }.act .requestOwnerLock := by
      unfold startElection
      rw [if_neg (by rw [hrunning]; decide)]
      obtain hphase | hphase := hphase <;> rw [hphase]
    rw [hstart]
    refine .requests ?_ rfl ?_
    · obtain hphase | hphase := hphase <;> rw [hphase] <;> rfl
    · show t.outbox ++ [.requestOwnerLock] = _
      rw [houtbox]
      rfl
  | stops => exact stopElection_move t (hsilent houtbox) fun _ => houtbox
  | withdraws stack hstack =>
    have hmove := stopElection_move
        { t with stack, terms := t.terms.dispose.1 } (hsilent houtbox) fun _ => houtbox
    cases hmove with
    | stays hphase hnone => exact .stays hphase hnone
    | requests hphase hphase' hbox => exact .requests hphase hphase' hbox
    | withdraws hphase hphase' hbox => exact .withdraws hphase hphase' hbox
    | leaves term hphase hphase' hnone => exact .leaves term hphase hphase' hnone
    | ends hphase hphase' hnone => exact .ends hphase hphase' hnone
  | settles => exact settle_move t houtbox _ _
  | recalls => exact settle_move t houtbox _ _
  | hearsResult message t₀ hears w hw term hterm ok error hbody outcome =>
    obtain ⟨helection, hempty⟩ := hears.election
    refine .stays (by rw [(settle_same t₀ _ _).2, helection]) fun deed hdeed => ?_
    obtain hdeed | rfl := (settle_applying t₀ _ _).2 deed hdeed
    · exact hsilent (hempty.trans houtbox) deed hdeed
    · rfl
  | hearsRequest message t₀ hears =>
    obtain ⟨helection, hempty⟩ := hears.election
    exact .stays (congrArg Election.phase helection) (hsilent (hempty.trans houtbox))
  | hearsAgain message t₀ hears =>
    obtain ⟨helection, hempty⟩ := hears.election
    exact .stays (congrArg Election.phase helection) (hone (hempty.trans houtbox) rfl)
  | hearsReady message t₀ hears requestId term question =>
    obtain ⟨helection, hempty⟩ := hears.election
    refine .stays ?_ (hone (((approve_deeds t₀ requestId term).1.trans hempty).trans houtbox) rfl)
    exact congrArg Election.phase ((approve_same t₀ requestId term).2.trans helection)
  | hearsApproval message t₀ hears requestId term approved =>
    obtain ⟨helection, hempty⟩ := hears.election
    refine .stays ?_ (hsilent (((takeApproval_deeds t₀ _ _ _).1.trans hempty).trans houtbox))
    have hsame : (t₀.takeApproval ⟨message.sender, requestId⟩ term
        approved).election = t₀.election := by
      unfold takeApproval
      split
      · rfl
      split
      · rfl
      split
      · rfl
      · rfl
    rw [hsame, helection]
  | hearsUnconnected message t₀ hears =>
    obtain ⟨helection, hempty⟩ := hears.election
    exact .stays (congrArg Election.phase helection) (hsilent (hempty.trans houtbox))
  | asks | beginsOwn | asksToBegin | begins | takesChunk | answersPeer =>
    exact .stays rfl (hone houtbox rfl)
  | settlesOwn h hholder ended =>
    refine .stays (by rw [(settle_same _ _ _).2]; rfl) fun deed hdeed => ?_
    obtain hdeed | rfl := (settle_applying _ _ _).2 deed hdeed
    · exact hsilent houtbox deed hdeed
    · rfl
  | answersOwn h hholder ended hended hforgets horigin _ ht' =>
    subst ht'
    exact .stays rfl (hsilent houtbox)
  | saysGoodbye h hholder deadline hstage =>
    have howner : t.election.phase = .owner h.term :=
      (hc.serving h hholder (by rw [hstage]; simp)).1
    have hmove := stopElection_move
      (((t.setHolder { h with stage := .stopped }).act (.requestGoodbye h.term)).send config .all
        (.ownerReleased h.term)) (fun deed hdeed => ?_) (fun hphase => by
          have hphase : t.election.phase = .requested := hphase
          rw [howner] at hphase
          cases hphase)
    · cases hmove with
      | stays hphase hnone => exact .stays hphase hnone
      | requests hphase hphase' hbox => exact .requests hphase hphase' hbox
      | withdraws hphase hphase' hbox => exact .withdraws hphase hphase' hbox
      | leaves term hphase hphase' hnone => exact .leaves term hphase hphase' hnone
      | ends hphase hphase' hnone => exact .ends hphase hphase' hnone
    · obtain hdeed | hdeed := List.mem_append.mp hdeed
      · exact hone houtbox rfl deed hdeed
      · rw [List.mem_singleton.mp hdeed]
        rfl
  | issues | marks | admits | connects | endsFirst | expiresAsked | turnsBack | failsChunk
  | endsStall | expiresQueued | handsBackOwn
  | givesUp | tearsDown => exact .stays rfl (hsilent houtbox)

end Tab

namespace System

variable {settings : ClientId → TabSettings} {discipline : Discipline} {s s' : System}
  {tab : ClientId} {t t' : Tab} {term : TermId}

/-- What a tab has of the ownership lock. -/
def ownerUse (s : System) (tab : ClientId) : WebLock.Use :=
  if s.isCrashed tab then .none else (s.tabs tab).election.phase.use

/-- What a tab sends when its term begins. -/
def claimOf (settings : ClientId → TabSettings) (tab : ClientId) (term : TermId) : Action :=
  .send ⟨tab, .all, .ownerClaimed term (settings tab).maxTabs⟩

/-- What may be said or done in a term, after what is on the record. -/
structure Turn (settings : ClientId → TabSettings) (before : List (ClientId × Action))
    (tab : ClientId) (action : Action) (term : TermId) :
    Prop where
  order : ∀ e ∈ before, ∀ earlier, e.2.servedTerm? = some earlier →
    earlier ≤ term ∧ (earlier = term → e.1 = tab)
  claimed : action = claimOf settings tab term ∨ (tab, claimOf settings tab term) ∈ before
  first : action = claimOf settings tab term → ∀ e ∈ before, e.2.servedTerm? ≠ some term
  isOpen : (tab, Tab.releaseOf tab term) ∉ before
  answered : action = Tab.releaseOf tab term → ∀ key, (tab, .began key term) ∈ before →
    key.origin ≠ tab →
    ∃ outcome, (tab, Tab.answerOf tab term key outcome) ∈ before

/-- What a record of deeds allows next. -/
def IsInTurn (settings : ClientId → TabSettings) (before : List (ClientId × Action))
    (e : ClientId × Action) : Prop :=
  ∀ term, e.2.servedTerm? = some term → Turn settings before e.1 e.2 term

/-- One owner at a time, the tab that was granted the ownership lock for the term, and no lock let
go before the goodbye. -/
structure SingleOwner (settings : ClientId → TabSettings) (s : System) : Prop where
  turns : History.Lawful (IsInTurn settings) s.log
  granted : ∀ e ∈ s.log, ∀ term, e.2.servedTerm? = some term → s.granted[term]? = some e.1
  locked : ∀ tab term, s.isCrashed tab = false → (tab, claimOf settings tab term) ∈ s.log →
    (tab, Tab.releaseOf tab term) ∉ s.log →
    s.ownerLock.held.map LockRequest.id = [tab] ∧
      (s.termLock (ownClaim settings tab term)).held.map LockRequest.id = [.own tab]

/-- The election: who has what of the ownership lock, and the term that goes with it. -/
structure Electing (settings : ClientId → TabSettings) (s : System) : Prop where
  lock : s.ownerLock.Tracks s.ownerUse
  last : ∀ tab term, s.isCrashed tab = false → (s.tabs tab).election.phase.term? = some term →
    s.granted[term]? = some tab ∧ s.granted.length = term + 1
  own : ∀ tab term, s.isCrashed tab = false → (s.tabs tab).election.phase = .owner term ∨
    (s.tabs tab).election.phase = .leaving term true →
    ⟨.own tab, true⟩ ∈ (s.termLock (ownClaim settings tab term)).held
  sound : ∀ claim, TermLockSound (s.termLock claim)

/-- The ports, and what is on the record of them. -/
structure Recorded (settings : ClientId → TabSettings) (s : System) : Prop where
  ports : ∀ tab h, (s.tabs tab).holder = some h → h.Sound tab
  past : ∀ e ∈ s.log, ∀ term, e.2.servedTerm? = some term →
    ∃ h, (s.tabs e.1).holder = some h ∧ h.term = term
  claimed : ∀ tab h, (s.tabs tab).holder = some h →
    s.granted[h.term]? = some tab ∧ (tab, claimOf settings tab h.term) ∈ s.log
  released : ∀ tab h, (s.tabs tab).holder = some h →
    (h.stage = .stopped ↔ (tab, Tab.releaseOf tab h.term) ∈ s.log)
  answered : ∀ tab h key, (s.tabs tab).holder = some h → (tab, .began key h.term) ∈ s.log →
    key.origin ≠ tab →
    key ∈ h.unanswered.map Job.key ∨ ∃ outcome, (tab, Tab.answerOf tab h.term key outcome) ∈ s.log
  turns : History.Lawful (IsInTurn settings) s.log

/-- The invariant of the election, the ports and the record. -/
structure Owned (settings : ClientId → TabSettings) (s : System) : Prop
      extends Electing settings s, Recorded settings s

theorem init_owned : Owned settings .init where
  ports _ _ h := by cases h
  lock := by
    have hnone : init.ownerUse = fun _ => .none := rfl
    rw [hnone]
    exact WebLock.tracks_free
  last _ _ _ h := by cases h
  own _ _ _ h := by
    obtain h | h := h
    · cases h
    · cases h
  sound _ := ⟨WebLock.exclusion_free, fun _ h => absurd h List.not_mem_nil⟩
  past _ h := absurd h List.not_mem_nil
  claimed _ _ h := by cases h
  released _ _ h := by cases h
  answered _ _ _ h := by cases h
  turns := History.lawful_nil

/-- Who holds a port that is not stopped, and has not crashed, holds the lock it was granted
last. -/
theorem Electing.holding (ho : Electing settings s) (hs : s.Grounded)
    (hlive : s.isCrashed tab = false) {h : Holder}
    (hholder : (s.tabs tab).holder = some h) (hstage : h.stage ≠ .stopped) :
    (s.tabs tab).election.phase = .owner h.term ∧ s.granted.length = h.term + 1 := by
  have hphase := ((hs.composed tab).serving h hholder hstage).1
  exact ⟨hphase, (ho.last tab h.term hlive (by rw [hphase]; rfl)).2⟩

/-- **The invariant says that there is one owner.** -/
theorem Owned.singleOwner (ho : Owned settings s) (hs : s.Grounded) : SingleOwner settings s where
  turns := ho.turns
  granted e he term hterm := by
    obtain ⟨h, hholder, rfl⟩ := ho.past e he term hterm
    exact (ho.claimed e.1 h hholder).1
  locked tab term hlive hclaim hopen := by
    obtain ⟨h, hholder, rfl⟩ := ho.past _ hclaim term rfl
    have hstage : h.stage ≠ .stopped :=
      fun hstopped => hopen ((ho.released tab h hholder).mp hstopped)
    have hphase := (ho.toElecting.holding hs hlive hholder hstage).1
    have hown := ho.own tab h.term hlive (Or.inl hphase)
    constructor
    · have huse : s.ownerUse tab = .held := by
        rw [ownerUse, hlive, hphase]
        rfl
      obtain ⟨r, hr, hid⟩ := (ho.lock.held tab).mpr huse
      rw [ho.lock.alone r hr, List.map_singleton, hid]
    · rw [(ho.sound _).1 _ hown rfl]
      rfl

/-! ### the record -/

/-- What says nothing in a term leaves the record as it is. -/
theorem Recorded.same (hr : Recorded settings s)
    (hholders : ∀ tab, (s'.tabs tab).holder = (s.tabs tab).holder)
    {more : List ClientId} (hgranted : s'.granted = s.granted ++ more)
    {deeds : List (ClientId × Action)} (hlog : s'.log = s.log ++ deeds)
    (hdeeds : ∀ e ∈ deeds, e.2.servedTerm? = none) : Recorded settings s' := by
  have hserved : ∀ {e : ClientId × Action} {term : TermId}, e ∈ s'.log →
      e.2.servedTerm? = some term → e ∈ s.log := fun he hterm => by
    rw [hlog] at he
    refine (List.mem_append.mp he).resolve_right fun hnew => ?_
    rw [hdeeds _ hnew] at hterm
    cases hterm
  have hkept : ∀ {e : ClientId × Action}, e ∈ s.log → e ∈ s'.log :=
    fun he => hlog ▸ List.mem_append_left _ he
  refine ⟨fun tab h hh => hr.ports tab h (hholders tab ▸ hh), fun e he term hterm => ?_,
    fun tab h hh => ?_, fun tab h hh => ?_,
    fun tab h key hh hbegan hforeign => ?_, ?_⟩
  · rw [hholders]
    exact hr.past e (hserved he hterm) term hterm
  · obtain ⟨hgrant, hclaim⟩ := hr.claimed tab h (hholders tab ▸ hh)
    refine ⟨?_, hkept hclaim⟩
    rw [hgranted, List.getElem?_append_left (List.getElem?_eq_some_iff.mp hgrant).1]
    exact hgrant
  · rw [hr.released tab h (hholders tab ▸ hh)]
    exact ⟨hkept, fun he => hserved he rfl⟩
  · exact (hr.answered tab h key (hholders tab ▸ hh) (hserved hbegan rfl) hforeign).imp_right
      fun ⟨outcome, he⟩ => ⟨outcome, hkept he⟩
  · rw [hlog]
    refine hr.turns.append fun before e after heq term hterm => ?_
    rw [hdeeds e (heq ▸ List.mem_append_right _ List.mem_cons_self)] at hterm
    cases hterm

/-- The terms on the record are those of grants, and each is its tab's. -/
theorem Recorded.granted_of_served (hr : Recorded settings s) {e : ClientId × Action}
    (he : e ∈ s.log) (hterm : e.2.servedTerm? = some term) :
    s.granted[term]? = some e.1 := by
  obtain ⟨h, hholder, rfl⟩ := hr.past e he term hterm
  exact (hr.claimed e.1 h hholder).1

/-- What is on the record was said in terms before the last one granted, or in it by its tab. -/
theorem Recorded.order (hr : Recorded settings s) (hgranted : s.granted[term]? = some tab)
    (hlast : s.granted.length = term + 1) :
    ∀ e ∈ s.log, ∀ earlier, e.2.servedTerm? = some earlier → earlier ≤ term ∧
      (earlier = term → e.1 = tab) := by
  intro e he earlier hearlier
  have hgrant := hr.granted_of_served he hearlier
  have hlt : earlier < s.granted.length := (List.getElem?_eq_some_iff.mp hgrant).1
  rw [hlast] at hlt
  refine ⟨Nat.le_of_lt_succ hlt, fun heq => ?_⟩
  rw [heq, hgranted] at hgrant
  exact (Option.some.inj hgrant).symm

theorem mem_log_setTab {e : ClientId × Action}
    (he : e ∈ s.log ++ t.outbox.map fun deed => (tab, deed)) :
    e ∈ s.log ∨ e.1 = tab ∧ e.2 ∈ t.outbox := by
  refine (List.mem_append.mp he).imp_right fun he => ?_
  obtain ⟨deed, hdeed, rfl⟩ := List.mem_map.mp he
  exact ⟨rfl, hdeed⟩

/-- What a tab does goes on the record where it may. -/
theorem Recorded.acts (hr : Recorded settings s) (he : Electing settings s) (hs : s.Grounded)
    (hlive : s.isCrashed tab = false)
    (hm : Tab.Move (config settings tab) discipline (s.tabs tab) t') :
    Recorded settings (s.setTab settings tab t') := by
  have hport : Tab.AtPort (config settings tab) (s.tabs tab) t' :=
    hm.atPort (hs.outbox tab) (hr.ports tab)
  obtain ⟨htabs, -, hgranted, hlog, -⟩ := setTab_same settings s tab t'
  have hother : ∀ other, other ≠ tab → (s.setTab settings tab t').tabs other = s.tabs other :=
      fun other hne => by
    rw [htabs, Function.update_of_ne hne]
  have hself : (s.setTab settings tab t').tabs tab = { t' with outbox := [] } := by
    rw [htabs, Function.update_self]
  have hback : ∀ {h' : Holder}, t'.holder = some h' →
      ∃ h, (s.tabs tab).holder = some h ∧ h.term = h'.term := fun hh' => by
    have hterm := hport.term
    rw [hh', Option.map_some] at hterm
    obtain ⟨h, hh, heq⟩ := Option.map_eq_some_iff.mp hterm.symm
    exact ⟨h, hh, heq⟩
  have hforth : ∀ {h : Holder}, (s.tabs tab).holder = some h →
      ∃ h', t'.holder = some h' ∧ h'.term = h.term := fun hh => by
    have hterm := hport.term
    rw [hh, Option.map_some] at hterm
    exact Option.map_eq_some_iff.mp hterm
  have hserved : ∀ {deed : Action} {term : TermId}, deed ∈ t'.outbox →
      deed.servedTerm? = some term →
      s.granted[term]? = some tab ∧ s.granted.length = term + 1 ∧
        (tab, claimOf settings tab term) ∈ s.log ∧
        (tab, Tab.releaseOf tab term) ∉ s.log := fun hdeed hterm => by
    obtain ⟨h, hh, rfl, hstage⟩ := hport.serves _ hdeed _ hterm
    obtain ⟨hgrant, hclaim⟩ := hr.claimed tab h hh
    exact ⟨hgrant, (he.holding hs hlive hh hstage).2, hclaim, fun hreleased =>
      hstage ((hr.released tab h hh).mpr hreleased)⟩
  refine ⟨fun other h hh => ?_, fun e hmem term hterm => ?_, fun other h hh => ?_,
    fun other h hh => ?_,
    fun other h key hh hbegan hforeign => ?_, ?_⟩
  · by_cases hne : other = tab
    · subst hne
      rw [hself] at hh
      exact hport.sound h hh
    · rw [hother other hne] at hh
      exact hr.ports other h hh
  · rw [hlog] at hmem
    obtain hmem | ⟨htab, hmem⟩ := mem_log_setTab hmem
    · obtain ⟨h, hh, rfl⟩ := hr.past e hmem term hterm
      by_cases hne : e.1 = tab
      · rw [hne, hself]
        rw [hne] at hh
        exact hforth hh
      · rw [hother _ hne]
        exact ⟨h, hh, rfl⟩
    · obtain ⟨h, hh, rfl, -⟩ := hport.serves _ hmem _ hterm
      rw [htab, hself]
      exact hforth hh
  · rw [hgranted, hlog]
    by_cases hne : other = tab
    · subst hne
      rw [hself] at hh
      obtain ⟨h₀, hh₀, hterm⟩ := hback hh
      obtain ⟨hgrant, hclaim⟩ := hr.claimed other h₀ hh₀
      rw [hterm] at hgrant hclaim
      exact ⟨hgrant, List.mem_append_left _ hclaim⟩
    · rw [hother other hne] at hh
      obtain ⟨hgrant, hclaim⟩ := hr.claimed other h hh
      exact ⟨hgrant, List.mem_append_left _ hclaim⟩
  · rw [hlog]
    by_cases hne : other = tab
    · subst hne
      rw [hself] at hh
      obtain ⟨h₀, hh₀, hterm⟩ := hback hh
      have hstage : h.stage = .stopped ↔
        h₀.stage = .stopped ∨ Tab.releaseOf other h₀.term ∈ t'.outbox := hport.stage h₀ h hh₀ hh
      rw [hstage, hr.released other h₀ hh₀, hterm, List.mem_append, List.mem_map]
      refine or_congr_right ⟨fun hdeed => ⟨_, hdeed, rfl⟩, fun ⟨deed, hdeed, heq⟩ => ?_⟩
      rw [← (Prod.mk.inj heq).2]
      exact hdeed
    · rw [hother other hne] at hh
      rw [hr.released other h hh]
      refine ⟨List.mem_append_left _, fun hmem => ?_⟩
      obtain hmem | ⟨htab, -⟩ := mem_log_setTab hmem
      · exact hmem
      · exact absurd htab hne
  · rw [hlog] at hbegan ⊢
    by_cases hne : other = tab
    · subst hne
      rw [hself] at hh
      obtain ⟨h₀, hh₀, hterm⟩ := hback hh
      obtain hbegan | ⟨-, hbegan⟩ := mem_log_setTab hbegan
      · rw [← hterm] at hbegan
        obtain hkey | ⟨outcome, hmem⟩ := hr.answered other h₀ key hh₀ hbegan hforeign
        · obtain hkey | hanswer := hport.keeps h₀ h hh₀ hh key hkey
          · exact Or.inl hkey
          · obtain ⟨outcome, hmem⟩ := hanswer hforeign
            rw [hterm] at hmem
            exact Or.inr ⟨outcome, List.mem_append_right _ (List.mem_map_of_mem hmem)⟩
        · rw [hterm] at hmem
          exact Or.inr ⟨outcome, List.mem_append_left _ hmem⟩
      · obtain ⟨h', hh', hkey⟩ := hport.begins key h.term hbegan
        rw [show h = h' from Option.some.inj (hh.symm.trans hh')]
        exact Or.inl hkey
    · rw [hother other hne] at hh
      obtain hbegan | ⟨htab, -⟩ := mem_log_setTab hbegan
      · exact (hr.answered other h key hh hbegan hforeign).imp_right fun ⟨outcome, hmem⟩ =>
          ⟨outcome, List.mem_append_left _ hmem⟩
      · exact absurd htab hne
  · rw [hlog]
    refine hr.turns.append fun before e after heq term hterm => ?_
    obtain ⟨pre, rest, houtbox, rfl, hrest⟩ := List.map_eq_append_iff.mp heq
    obtain ⟨deed, post, rfl, rfl, -⟩ := List.map_eq_cons_iff.mp hrest
    have hdeed : deed ∈ t'.outbox := houtbox ▸ List.mem_append_right _ List.mem_cons_self
    have hpre : ∀ deed ∈ pre, deed ∈ t'.outbox :=
      fun deed hdeed => houtbox ▸ List.mem_append_left _ hdeed
    obtain ⟨hgrant, hlast, hclaim, hopen⟩ := hserved hdeed hterm
    obtain ⟨h, hh, rfl, -⟩ := hport.serves deed hdeed term hterm
    have hreleased : ∀ before after, t'.outbox = before ++ Tab.releaseOf tab h.term :: after →
        h.unanswered = [] ∧ ∀ deed ∈ before ++ after, deed.servedTerm? = none :=
          fun before after heq =>
      have hafter := hport.released h hh before _ after heq rfl
      ⟨hafter.1, hafter.2.2⟩
    refine ⟨fun e he => ?_, Or.inr (List.mem_append_left _ hclaim), fun hself => ?_, fun he => ?_,
      fun hself key hbegan hforeign => ?_⟩
    · obtain he | he := List.mem_append.mp he
      · exact hr.order hgrant hlast e he
      · obtain ⟨earlier, hearlier, rfl⟩ := List.mem_map.mp he
        refine fun term' hterm' => ⟨?_, fun _ => rfl⟩
        obtain ⟨g, hg, rfl, -⟩ := hport.serves earlier (hpre earlier hearlier) term' hterm'
        rw [Option.some.inj (hg.symm.trans hh)]
    · exact absurd rfl (hport.claims deed hdeed _ h.term _ hself)
    · obtain he | he := List.mem_append.mp he
      · exact hopen he
      · obtain ⟨earlier, hearlier, hpair⟩ := List.mem_map.mp he
        obtain rfl : earlier = Tab.releaseOf tab h.term := (Prod.mk.inj hpair).2
        obtain ⟨first, second, rfl⟩ := List.append_of_mem hearlier
        have hquiet := (hreleased first (second ++ deed :: post)
            (by rw [houtbox, List.append_assoc, List.cons_append])).2 deed
          (List.mem_append_right _ (List.mem_append_right _ List.mem_cons_self))
        rw [hquiet] at hterm
        cases hterm
    · dsimp only at hself
      subst hself
      obtain ⟨hnone, hquiet⟩ := hreleased pre post houtbox
      obtain hbegan | hbegan := List.mem_append.mp hbegan
      · obtain hkey | ⟨outcome, hanswer⟩ := hr.answered tab h key hh hbegan hforeign
        · rw [hnone] at hkey
          cases hkey
        · exact ⟨outcome, List.mem_append_left _ hanswer⟩
      · obtain ⟨earlier, hearlier, hpair⟩ := List.mem_map.mp hbegan
        obtain rfl : earlier = .began key h.term := (Prod.mk.inj hpair).2
        cases hquiet _ (List.mem_append_left _ hearlier)

/-- The claim of a term goes on the record first. -/
theorem Recorded.claims (hr : Recorded settings s) (hgranted : s.granted[term]? = some tab)
    (hlast : s.granted.length = term + 1) (hnone : (s.tabs tab).holder = none)
    (htabs : s'.tabs = Function.update s.tabs tab t')
    (hholder : t'.holder = some (.init term)) (hsame : s'.granted = s.granted)
    (hlog : s'.log = s.log ++ [(tab, claimOf settings tab term)]) :
    Recorded settings s' := by
  have hself : s'.tabs tab = t' := by rw [htabs, Function.update_self]
  have hother : ∀ other, other ≠ tab → s'.tabs other = s.tabs other :=
    fun other hne => by rw [htabs, Function.update_of_ne hne]
  have hinit : ∀ {h : Holder}, t'.holder = some h → h = .init term :=
    fun hh => Option.some.inj (hh.symm.trans hholder)
  -- a tab without a port has said nothing in any term
  have hsilent : ∀ {action : Action} {term' : TermId}, (tab, action) ∈ s.log →
      action.servedTerm? = some term' → False := fun hmem hterm => by
    obtain ⟨h, hh, -⟩ := hr.past _ hmem _ hterm
    rw [hnone] at hh
    cases hh
  have hnew : ∀ {e : ClientId × Action}, e ∈ s'.log →
      e ∈ s.log ∨ e = (tab, claimOf settings tab term) := fun hmem => by
    rw [hlog] at hmem
    exact (List.mem_append.mp hmem).imp_right List.mem_singleton.mp
  refine ⟨fun other h hh => ?_, fun e hmem term' hterm => ?_, fun other h hh => ?_,
    fun other h hh => ?_,
    fun other h key hh hbegan hforeign => ?_, ?_⟩
  · by_cases hne : other = tab
    · subst hne
      rw [hself] at hh
      rw [hinit hh]
      exact Holder.init_sound term
    · exact hr.ports other h (hother other hne ▸ hh)
  · obtain hmem | rfl := hnew hmem
    · obtain ⟨h, hh, heq⟩ := hr.past e hmem term' hterm
      by_cases hne : e.1 = tab
      · rw [hne, hnone] at hh
        cases hh
      · exact ⟨h, by rw [hother _ hne]; exact hh, heq⟩
    · refine ⟨.init term, by rw [hself]; exact hholder, Option.some.inj hterm⟩
  · rw [hsame, hlog]
    by_cases hne : other = tab
    · subst hne
      rw [hself] at hh
      rw [hinit hh]
      exact ⟨hgranted, List.mem_append_right _ List.mem_cons_self⟩
    · obtain ⟨hgrant, hclaim⟩ := hr.claimed other h (hother other hne ▸ hh)
      exact ⟨hgrant, List.mem_append_left _ hclaim⟩
  · by_cases hne : other = tab
    · subst hne
      rw [hself] at hh
      rw [hinit hh]
      refine ⟨(fun heq => by cases heq), fun hmem => ?_⟩
      obtain hmem | heq := hnew hmem
      · exact (hsilent hmem rfl).elim
      · cases (Prod.mk.inj heq).2
    · rw [hr.released other h (hother other hne ▸ hh), hlog]
      refine ⟨List.mem_append_left _, fun hmem => ?_⟩
      obtain hmem | hmem := List.mem_append.mp hmem
      · exact hmem
      · exact absurd (Prod.mk.inj (List.mem_singleton.mp hmem)).1 hne
  · obtain hbegan | heq := hnew hbegan
    · by_cases hne : other = tab
      · subst hne
        exact (hsilent hbegan rfl).elim
      · refine (hr.answered other h key (hother other hne ▸ hh) hbegan hforeign).imp_right
          fun ⟨outcome, hmem⟩ => ⟨outcome, ?_⟩
        rw [hlog]
        exact List.mem_append_left _ hmem
    · cases (Prod.mk.inj heq).2
  · rw [hlog]
    refine hr.turns.concat fun term' hterm => ?_
    obtain rfl : term = term' := Option.some.inj hterm
    refine ⟨hr.order hgranted hlast, Or.inl rfl, fun _ e he hserved => ?_,
      fun hmem => hsilent hmem rfl, fun heq => by cases heq⟩
    have htab := (hr.order hgranted hlast e he term hserved).2 rfl
    obtain ⟨other, action⟩ := e
    dsimp only at htab
    subst htab
    exact hsilent he hserved

/-! ### the election -/

theorem ownerUse_of_live (hlive : s.isCrashed tab = false) :
    s.ownerUse tab = (s.tabs tab).election.phase.use := by
  rw [ownerUse, hlive]
  rfl

theorem perform_ownerLock (s : System) (tab : ClientId) {deed : Action}
    (hnone : deed.isOwnerLockCall = false) :
    (s.perform settings tab deed).ownerLock = s.ownerLock := by
  cases deed with
  | requestOwnerLock | withdrawOwnerRequest => cases hnone
  | send | requestTermLock | requestGoodbye | check | watch | abortWatch | began | chunkTaken
  | settled => rfl

theorem setTab_ownerLock (settings : ClientId → TabSettings) (s : System) (tab : ClientId) (t : Tab)
    (hnone : ∀ deed ∈ t.outbox, deed.isOwnerLockCall = false) :
    (s.setTab settings tab t).ownerLock = s.ownerLock := by
  rw [setTab_eq]
  show (s.performAll settings tab t.outbox).ownerLock = s.ownerLock
  unfold performAll
  generalize t.outbox = deeds at hnone
  induction deeds generalizing s with
  | nil => rfl
  | cons deed deeds ih =>
    rw [List.foldl_cons, ih _ fun deed hdeed => hnone deed (List.mem_cons_of_mem _ hdeed)]
    exact perform_ownerLock s tab (hnone deed List.mem_cons_self)

/-- One tab goes on with the election. -/
theorem Electing.step (he : Electing settings s) (hlive : s.isCrashed tab = false)
    (htabs : s'.tabs = Function.update s.tabs tab t')
    (hcrashed : s'.isCrashed = s.isCrashed)
    (hlock : s'.ownerLock.Tracks (Function.update s.ownerUse tab t'.election.phase.use))
    (hgranted : s'.granted = s.granted)
    (hlast : ∀ term, t'.election.phase.term? = some term →
      (s.tabs tab).election.phase.term? = some term)
    (hown : ∀ term, t'.election.phase = .owner term ∨ t'.election.phase = .leaving term true →
      ⟨.own tab, true⟩ ∈ (s'.termLock (ownClaim settings tab term)).held)
    (hheld : ∀ claim other, other ≠ tab → ⟨.own other, true⟩ ∈ (s.termLock claim).held →
      ⟨.own other, true⟩ ∈ (s'.termLock claim).held)
    (hsound : ∀ claim, TermLockSound (s'.termLock claim)) : Electing settings s' := by
  have hself : s'.tabs tab = t' := by rw [htabs, Function.update_self]
  have hother : ∀ other, other ≠ tab → s'.tabs other = s.tabs other :=
    fun other hne => by rw [htabs, Function.update_of_ne hne]
  have huse : s'.ownerUse = Function.update s.ownerUse tab t'.election.phase.use := by
    funext other
    rw [Function.update_apply]
    split
    · next heq =>
      subst heq
      rw [ownerUse_of_live (by rw [hcrashed]; exact hlive), hself]
    · next hne => rw [ownerUse, ownerUse, hcrashed, hother other hne]
  refine ⟨huse ▸ hlock, fun other term halive hterm => ?_,
    fun other term halive hphase => ?_, hsound⟩
  · rw [hcrashed] at halive
    rw [hgranted]
    by_cases hne : other = tab
    · subst hne
      rw [hself] at hterm
      exact he.last other term halive (hlast term hterm)
    · rw [hother other hne] at hterm
      exact he.last other term halive hterm
  · rw [hcrashed] at halive
    by_cases hne : other = tab
    · subst hne
      rw [hself] at hphase
      exact hown term hphase
    · rw [hother other hne] at hphase
      exact hheld _ other hne (he.own other term halive hphase)

theorem update_ownerUse (hlive : s.isCrashed tab = false) {use : WebLock.Use}
    (huse : (s.tabs tab).election.phase.use = use) :
    Function.update s.ownerUse tab use = s.ownerUse := by
  rw [← huse, ← ownerUse_of_live hlive]
  exact Function.update_eq_self tab s.ownerUse

theorem Electing.acts (he : Electing settings s) (hs : s.Grounded) (hlive : s.isCrashed tab = false)
    (hm : Tab.Move (config settings tab) discipline (s.tabs tab) t') :
    Electing settings (s.setTab settings tab t') := by
  obtain ⟨htabs, hcrashed, hgranted, -, -, hheld⟩ := setTab_same settings s tab t'
  have hsound : ∀ claim, TermLockSound ((s.setTab settings tab t').termLock claim) :=
    fun claim => setTab_sound settings s tab t' (he.sound claim)
  have hkept : ∀ claim other, other ≠ tab → ⟨.own other, true⟩ ∈ (s.termLock claim).held →
      ⟨.own other, true⟩ ∈ ((s.setTab settings tab t').termLock claim).held :=
        fun claim other _ hmem => by
    rw [hheld]
    exact hmem
  have huse : s.ownerUse tab = (s.tabs tab).election.phase.use := ownerUse_of_live hlive
  cases hm.electionMove (hs.outbox tab) (hs.composed tab) with
  | stays hphase hnone =>
    refine he.step hlive htabs hcrashed ?_ hgranted (fun term hterm => ?_)
      (fun term hterm => ?_) hkept hsound
    · rw [setTab_ownerLock settings s tab t' hnone,
        update_ownerUse hlive (congrArg ElectionPhase.use hphase.symm)]
      exact he.lock
    · exact hphase ▸ hterm
    · rw [hheld]
      exact he.own tab term hlive (hphase ▸ hterm)
  | requests hphase hphase' houtbox =>
    refine he.step hlive htabs hcrashed ?_ hgranted (fun term hterm => ?_)
      (fun term hterm => ?_) hkept hsound
    · have hlock : (s.setTab settings tab t').ownerLock = s.ownerLock.request ⟨tab, true⟩ := by
        rw [setTab_eq, houtbox]
        rfl
      have hqueued : t'.election.phase.use = .queued := by
        rw [hphase']
        rfl
      rw [hlock, hqueued]
      exact he.lock.request (huse.trans hphase)
    · have hterm : t'.election.phase.term? = some term := hterm
      rw [hphase'] at hterm
      cases hterm
    · have hterm : t'.election.phase = .owner term ∨ t'.election.phase = .leaving term true := hterm
      rw [hphase'] at hterm
      obtain hterm | hterm := hterm
      · cases hterm
      · cases hterm
  | withdraws hphase hphase' houtbox =>
    refine he.step hlive htabs hcrashed ?_ hgranted (fun term hterm => ?_)
      (fun term hterm => ?_) hkept hsound
    · have hlock : (s.setTab settings tab t').ownerLock = s.ownerLock.withdraw tab := by
        rw [setTab_eq, houtbox]
        rfl
      have hnone : t'.election.phase.use = .none := by
        rw [hphase']
        rfl
      rw [hlock, hnone]
      exact he.lock.withdraw (by rw [huse, hphase]; rfl)
    · have hterm : t'.election.phase.term? = some term := hterm
      rw [hphase'] at hterm
      cases hterm
    · have hterm : t'.election.phase = .owner term ∨ t'.election.phase = .leaving term true := hterm
      rw [hphase'] at hterm
      obtain hterm | hterm := hterm
      · cases hterm
      · cases hterm
  | leaves term hphase hphase' hnone =>
    refine he.step hlive htabs hcrashed ?_ hgranted (fun term' hterm => ?_)
      (fun term' hterm => ?_) hkept hsound
    · rw [setTab_ownerLock settings s tab t' hnone, update_ownerUse hlive]
      · exact he.lock
      · show (s.tabs tab).election.phase.use = t'.election.phase.use
        rw [hphase, hphase']
        rfl
    · have hterm : t'.election.phase.term? = some term' := hterm
      rw [hphase'] at hterm
      rw [hphase]
      exact hterm
    · have hterm : t'.election.phase = .owner term' ∨ t'.election.phase = .leaving term' true :=
        hterm
      rw [hphase'] at hterm
      obtain hterm | hterm := hterm
      · cases hterm
      · rw [hheld, ← (ElectionPhase.leaving.inj hterm).1]
        exact he.own tab term hlive (Or.inl hphase)
  | ends hphase hphase' hnone =>
    refine he.step hlive htabs hcrashed ?_ hgranted (fun term hterm => ?_)
      (fun term hterm => ?_) hkept hsound
    · rw [setTab_ownerLock settings s tab t' hnone, update_ownerUse hlive]
      · exact he.lock
      · show (s.tabs tab).election.phase.use = t'.election.phase.use
        rw [hphase, hphase']
        rfl
    · have hterm : t'.election.phase.term? = some term := hterm
      rw [hphase'] at hterm
      cases hterm
    · have hterm : t'.election.phase = .owner term ∨ t'.election.phase = .leaving term true := hterm
      rw [hphase'] at hterm
      obtain hterm | hterm := hterm
      · cases hterm
      · cases hterm

/-! ### every move keeps the invariant -/

theorem holder_setTab (s : System) {tab : ClientId} {t : Tab}
    (hholder : t.holder = (s.tabs tab).holder) (other : ClientId) :
    ((s.setTab settings tab t).tabs other).holder = (s.tabs other).holder := by
  rw [(setTab_same settings s tab t).1, Function.update_apply]
  split
  · next heq =>
    subst heq
    exact hholder
  · rfl

/-- A turn of the election about which the record says nothing. -/
theorem Recorded.elects (hr : Recorded settings s) (s₁ : System) (htabs : s₁.tabs = s.tabs)
    (hlog : s₁.log = s.log) {more : List ClientId}
    (hgranted : s₁.granted = s.granted ++ more) (hholder : t.holder = (s.tabs tab).holder)
    (hdeeds : ∀ deed ∈ t.outbox, deed.servedTerm? = none) :
    Recorded settings (s₁.setTab settings tab t) := by
  obtain ⟨-, -, hsame, hrecord, -⟩ := setTab_same settings s₁ tab t
  refine hr.same (fun other => ?_) (hsame.trans hgranted) (hrecord.trans (by rw [hlog]))
    fun e he => ?_
  · rw [holder_setTab s₁ (by rw [htabs]; exact hholder), htabs]
  · obtain ⟨deed, hdeed, rfl⟩ := List.mem_map.mp he
    exact hdeeds deed hdeed

theorem letGo_held {lock : WebLock TermLockUse} {tab other : ClientId} (hne : other ≠ tab)
    (hmem : ⟨.own other, true⟩ ∈ lock.held) :
    ⟨.own other, true⟩ ∈ (lock.letGo (.own tab)).held :=
    held_letGo (fun heq => hne (TermLockUse.own.inj heq)) hmem

theorem Owned.crash (ho : Owned settings s) (tab : ClientId) : Owned settings (s.crash tab) := by
  have hlive : ∀ other, (s.crash tab).isCrashed other = false →
      other ≠ tab ∧ s.isCrashed other = false := fun other halive => by
    have halive : Function.update s.isCrashed tab true other = false := halive
    rw [Function.update_apply] at halive
    split at halive
    · cases halive
    · next hne => exact ⟨hne, halive⟩
  have huse : (s.crash tab).ownerUse = Function.update s.ownerUse tab .none := by
    funext other
    rw [Function.update_apply]
    show (if Function.update s.isCrashed tab true other then WebLock.Use.none else _) = _
    rw [Function.update_apply]
    split
    · rfl
    · rfl
  exact
    { lock := huse ▸ ho.lock.drop tab
      last := fun other term halive => ho.last other term (hlive other halive).2
      own := fun other term halive hphase => by
        obtain ⟨hne, hother⟩ := hlive other halive
        exact List.mem_filter.mpr ⟨ho.own other term hother hphase, by simp [TermLockUse.tab, hne]⟩
      sound := fun claim => (ho.sound claim).filter _ _
      toRecorded := ho.toRecorded.same (fun _ => rfl) (List.append_nil _).symm
        (List.append_nil _).symm fun _ h => absurd h List.not_mem_nil }

theorem Owned.grantsOwner (ho : Owned settings s) (hs : s.Grounded)
    (hlive : s.isCrashed tab = false) {lock : WebLock ClientId}
    (hgrant : s.ownerLock.grant tab = some lock) :
    Owned settings (({ s with
    ownerLock := lock
    granted := s.granted ++ [tab] } : System).setTab settings tab
      ((s.tabs tab).ownerGranted s.granted.length)) := by
  have hbox : ((s.tabs tab).ownerGranted s.granted.length).outbox = [.requestTermLock
      s.granted.length] := by
    show (s.tabs tab).outbox ++ _ = _
    rw [hs.outbox tab]
    rfl
  obtain ⟨htabs, hcrashed, hgranted, -, -, hheld⟩ := setTab_same settings
    ({ s with ownerLock := lock, granted := s.granted ++ [tab] } : System) tab
      ((s.tabs tab).ownerGranted s.granted.length)
  have howner := setTab_ownerLock settings ({ s with
      ownerLock := lock
      granted := s.granted ++ [tab] } : System) tab
    ((s.tabs tab).ownerGranted s.granted.length) fun deed hdeed => by
      rw [hbox] at hdeed
      rw [List.mem_singleton.mp hdeed]
      rfl
  have hrecorded := ho.toRecorded.elects ({ s with
      ownerLock := lock
      granted := s.granted ++ [tab] } : System) (t := (s.tabs tab).ownerGranted s.granted.length)
    rfl rfl rfl rfl fun deed hdeed => by
      rw [hbox] at hdeed
      rw [List.mem_singleton.mp hdeed]
      rfl
  have hlocksound := fun claim => setTab_sound settings ({ s with
      ownerLock := lock
      granted := s.granted ++ [tab] } : System)
    tab ((s.tabs tab).ownerGranted s.granted.length) (ho.sound claim)
  generalize
    ({ s with ownerLock := lock, granted := s.granted ++ [tab] } : System).setTab settings tab
    ((s.tabs tab).ownerGranted s.granted.length) = s' at *
  have hphase : (s'.tabs tab).election.phase = .locking s.granted.length := by
    rw [htabs, Function.update_self]
    rfl
  have hother : ∀ other, other ≠ tab → s'.tabs other = s.tabs other :=
    fun other hne => by rw [htabs, Function.update_of_ne hne]
  have huse : s'.ownerUse = Function.update s.ownerUse tab .held := by
    funext other
    rw [Function.update_apply]
    split
    · next heq =>
      subst heq
      rw [ownerUse_of_live (by rw [hcrashed]; exact hlive), hphase]
      rfl
    · next hne => rw [ownerUse, ownerUse, hcrashed, hother other hne]
  have hlock : s'.ownerLock.Tracks s'.ownerUse := by
    rw [howner, huse]
    exact ho.lock.grant hgrant
  refine { lock := hlock, last := fun other term halive hterm => ?_,
           own := fun other term halive howns => ?_,
           sound := hlocksound, toRecorded := hrecorded }
  · have hholds : s'.ownerUse other = .held := by
      rw [ownerUse_of_live halive]
      cases hother' : (s'.tabs other).election.phase <;> rw [hother'] at hterm <;>
        first | rfl | cases hterm
    obtain rfl : other = tab := hlock.unique hholds (by rw [huse, Function.update_self])
    rw [hphase] at hterm
    obtain rfl := Option.some.inj hterm
    rw [hgranted]
    exact ⟨List.getElem?_concat_length, List.length_append⟩
  · by_cases hne : other = tab
    · subst hne
      rw [hphase] at howns
      obtain howns | howns := howns
      · cases howns
      · cases howns
    · rw [hother other hne] at howns
      rw [hheld]
      rw [hcrashed] at halive
      exact ho.own other term halive howns

/-- The lock request for a term the tab was granted is answered. -/
theorem Owned.grantsTerm (ho : Owned settings s) (hs : s.Grounded) (hlive : s.isCrashed tab = false)
    (hphase : (s.tabs tab).election.phase = .locking term) {lock : WebLock TermLockUse}
    (hgrant : (s.termLock (ownClaim settings tab term)).grant (.own tab) = some lock) :
    Owned settings ((s.updateTermLock (ownClaim settings tab term)
      fun _ => lock).setTab settings tab
      ((s.tabs tab).termGranted (config settings tab) term)) := by
  have hterm : (s.tabs tab).election.phase.term? = some term := by rw [hphase]; rfl
  have hown : ⟨.own tab, true⟩ ∈ lock.held := (ho.sound _).own_of_grant hgrant
  have hsound : ∀ claim, TermLockSound
      ((s.updateTermLock (ownClaim settings tab term) fun _ => lock).termLock claim) := fun claim =>
    sound_updateTermLock (f := fun _ => lock) (fun h => h.grant hgrant) (ho.sound claim)
  have hkept : ∀ claim other, ⟨.own other, true⟩ ∈ (s.termLock claim).held →
      ⟨.own other, true⟩ ∈
        ((s.updateTermLock (ownClaim settings tab term) fun _ => lock).termLock claim).held :=
        fun claim other hmem =>
    held_updateTermLock (f := fun _ => lock) (held_grant hgrant) hmem
  have hhere : ((s.updateTermLock (ownClaim settings tab term) fun _ => lock).termLock
      (ownClaim settings tab term)).held = lock.held := by
    simp only [updateTermLock, Function.update_self]
  generalize hs₁ : (s.updateTermLock (ownClaim settings tab term) fun _ => lock) = s₁ at *
  have hbase : s₁.tabs = s.tabs ∧ s₁.isCrashed = s.isCrashed ∧ s₁.granted = s.granted ∧
      s₁.log = s.log ∧ s₁.ownerLock = s.ownerLock := by
    subst hs₁
    exact ⟨rfl, rfl, rfl, rfl, rfl⟩
  obtain ⟨hbtabs, hbcrashed, hbgranted, hblog, hbowner⟩ := hbase
  have helects : ∀ t' : Tab, t'.election.phase = .owner term ∨
      t'.election.phase = .leaving term true →
      (∀ deed ∈ t'.outbox, deed.isOwnerLockCall = false) →
        Electing settings (s₁.setTab settings tab t') := fun t' hphase' hnone => by
    obtain ⟨htabs, hcrashed, hgranted, -, -, hheld⟩ := setTab_same settings s₁ tab t'
    refine ho.toElecting.step hlive (htabs.trans (by rw [hbtabs])) (hcrashed.trans hbcrashed) ?_
        (hgranted.trans hbgranted)
      (fun term' hterm' => ?_) (fun term' hterm' => ?_) (fun claim other _ hmem => ?_) fun claim =>
        setTab_sound settings s₁ tab t' (hsound claim)
    · have huse : (s.tabs tab).election.phase.use = t'.election.phase.use := by
        rw [hphase]
        obtain heq | heq := hphase'
        · rw [heq]
          rfl
        · rw [heq]
          rfl
      rw [setTab_ownerLock settings s₁ tab t' hnone, hbowner, update_ownerUse hlive huse]
      exact ho.lock
    · have hterm' : t'.election.phase.term? = some term' := hterm'
      obtain heq | heq := hphase'
      · rw [heq] at hterm'
        rw [hterm]
        exact hterm'
      · rw [heq] at hterm'
        rw [hterm]
        exact hterm'
    · have hterm' : t'.election.phase = .owner term' ∨ t'.election.phase = .leaving term' true :=
        hterm'
      have heq : term = term' := by
        obtain heq | heq := hphase'
        · rw [heq] at hterm'
          obtain h | h := hterm'
          · exact ElectionPhase.owner.inj h
          · cases h
        · rw [heq] at hterm'
          obtain h | h := hterm'
          · cases h
          · exact (ElectionPhase.leaving.inj h).1
      rw [hheld, ← heq, hhere]
      exact hown
    · rw [hheld]
      exact hkept claim other hmem
  have hquiet : ∀ deed ∈ (s.tabs tab).outbox, deed.isOwnerLockCall = false ∧
      deed.servedTerm? = none := fun deed hdeed => by
    rw [hs.outbox tab] at hdeed
    cases hdeed
  obtain ⟨-, heq⟩ | ⟨-, -, heq⟩ | ⟨hrunning, -, heq⟩ :=
    termGranted_cases (s.tabs tab) (config settings tab) term
  · rw [heq]
    exact
      { toElecting := helects _ (Or.inr rfl) fun deed hdeed => (hquiet deed hdeed).1
        toRecorded := ho.toRecorded.elects s₁ hbtabs hblog
          (hbgranted.trans (List.append_nil _).symm) rfl fun deed hdeed => (hquiet deed hdeed).2 }
  · rw [heq]
    exact
      { toElecting := helects _ (Or.inl rfl) fun deed hdeed => (hquiet deed hdeed).1
        toRecorded := ho.toRecorded.elects s₁ hbtabs hblog
          (hbgranted.trans (List.append_nil _).symm) rfl fun deed hdeed => (hquiet deed hdeed).2 }
  · have hbox : ((s.tabs tab).termGranted (config settings tab) term).outbox = [claimOf settings
        tab term] := by
      rw [heq]
      show (s.tabs tab).outbox ++ _ = _
      rw [hs.outbox tab]
      rfl
    have hnone : (s.tabs tab).holder = none := by
      by_contra hsome
      obtain ⟨h, hholder⟩ := Option.ne_none_iff_exists'.mp hsome
      obtain ⟨-, hstopped⟩ := stopped_of_composed (hs.composed tab) (by simp [hphase]) hholder
      rw [hrunning] at hstopped
      cases hstopped
    obtain ⟨hgrant', hlast⟩ := ho.last tab term hlive hterm
    obtain ⟨htabs, -, hgranted, hlog, -⟩ :=
      setTab_same settings s₁ tab ((s.tabs tab).termGranted (config settings tab) term)
    refine { toElecting := helects _ (Or.inl ?_) fun deed hdeed => ?_, toRecorded := ?_ }
    · rw [heq]
    · rw [hbox] at hdeed
      rw [List.mem_singleton.mp hdeed]
      rfl
    · refine ho.toRecorded.claims hgrant' hlast hnone (htabs.trans (by rw [hbtabs])) ?_
        (hgranted.trans hbgranted) ?_
      · show ((s.tabs tab).termGranted (config settings tab) term).holder = _
        rw [heq]
      · rw [hlog, hblog, hbox]
        rfl

/-- A tab goes on with the election, and does nothing outside for it but with locks. -/
theorem Owned.electionStep (ho : Owned settings s) (hs : s.Grounded)
    (hlive : s.isCrashed tab = false) {s₁ : System} {t' : Tab}
    (hbtabs : s₁.tabs = s.tabs) (hbcrashed : s₁.isCrashed = s.isCrashed)
    (hbgranted : s₁.granted = s.granted) (hblog : s₁.log = s.log)
    (houtbox : t'.outbox = (s.tabs tab).outbox) (hholder : t'.holder = (s.tabs tab).holder)
    (hlock : s₁.ownerLock.Tracks (Function.update s.ownerUse tab t'.election.phase.use))
    (hlast : ∀ term, t'.election.phase.term? = some term →
      (s.tabs tab).election.phase.term? = some term)
    (hown : ∀ term, t'.election.phase ≠ .owner term ∧ t'.election.phase ≠ .leaving term true)
    (hheld : ∀ claim other, other ≠ tab → ⟨.own other, true⟩ ∈ (s.termLock claim).held →
      ⟨.own other, true⟩ ∈ (s₁.termLock claim).held)
    (hsound : ∀ claim, TermLockSound (s₁.termLock claim)) :
    Owned settings (s₁.setTab settings tab t') := by
  have hempty : t'.outbox = [] := houtbox.trans (hs.outbox tab)
  have hnone : ∀ deed, deed ∉ t'.outbox := fun deed => by
    rw [hempty]
    exact List.not_mem_nil
  obtain ⟨htabs, hcrashed, hgranted, -, -, hheld'⟩ := setTab_same settings s₁ tab t'
  rw [hbtabs] at htabs
  refine { toElecting := ?_, toRecorded := ?_ }
  · refine ho.toElecting.step hlive htabs (hcrashed.trans hbcrashed) ?_ (hgranted.trans hbgranted)
      (fun term hterm => hlast term hterm) (fun term hterm => ?_) (fun claim other hne hmem => ?_)
        fun claim => setTab_sound settings s₁ tab t' (hsound claim)
    · rw [setTab_ownerLock settings s₁ tab t' fun deed hdeed => absurd hdeed (hnone deed)]
      exact hlock
    · obtain hterm | hterm := hterm
      · exact absurd hterm (hown term).1
      · exact absurd hterm (hown term).2
    · rw [hheld']
      exact hheld claim other hne hmem
  · exact ho.toRecorded.elects s₁ hbtabs hblog (hbgranted.trans (List.append_nil _).symm) hholder
      fun deed hdeed => absurd hdeed (hnone deed)

/-- **Every move keeps the invariant.** -/
theorem Move.owned (hm : Move settings discipline s s') (hs : s.Grounded) (ho : Owned settings s) :
    Owned settings s' := by
  cases hm with
  | aside _ haside =>
    have huse : s'.ownerUse = s.ownerUse := by
      funext other
      rw [ownerUse, ownerUse, haside.isCrashed, haside.tabs]
    refine
      { lock := by rw [haside.ownerLock, huse]; exact ho.lock
        last := fun tab term hlive hterm => ?_
        own := fun tab term hlive hphase => ?_
        sound := fun claim => haside.sound claim (ho.sound claim)
        toRecorded := ho.toRecorded.same (fun tab => by rw [haside.tabs])
            (haside.granted.trans (List.append_nil _).symm)
          (haside.log.trans (List.append_nil _).symm) fun _ h => absurd h List.not_mem_nil }
    · rw [haside.isCrashed] at hlive
      rw [haside.tabs] at hterm
      rw [haside.granted]
      exact ho.last tab term hlive hterm
    · rw [haside.isCrashed] at hlive
      rw [haside.tabs] at hphase
      exact haside.held _ tab (ho.own tab term hlive hphase)
  | crashes tab => exact ho.crash tab
  | acts tab hlive t' hmove =>
    exact
      { toElecting := ho.toElecting.acts hs hlive hmove
        toRecorded := ho.toRecorded.acts ho.toElecting hs hlive hmove }
  | hears sender receiver hlive hidle message rest hchannel t' hrest =>
    have hbox : t'.outbox = [] := by
      rw [hrest.outbox, hs.outbox receiver]
      rfl
    obtain ⟨htabs, hcrashed, hgranted, -, -, hheld⟩ := setTab_same settings
      ({ s with
        channel := Function.update s.channel sender
          (Function.update (s.channel sender) receiver rest) } : System) receiver t'
    refine
      { toElecting := ?_
        toRecorded := ho.toRecorded.elects _ rfl rfl (List.append_nil _).symm hrest.holder
          fun deed hdeed => absurd (hbox ▸ hdeed) List.not_mem_nil }
    have hphase : t'.election.phase = (s.tabs receiver).election.phase :=
      congrArg Election.phase hrest.election
    refine ho.toElecting.step hlive htabs hcrashed ?_ hgranted (fun term hterm =>
        hphase ▸ hterm) (fun term hterm => ?_)
      (fun claim other _ hmem => ?_) fun claim =>
        setTab_sound settings _ receiver t' (ho.sound claim)
    · rw [setTab_ownerLock settings _ receiver t' fun deed hdeed =>
        absurd (hbox ▸ hdeed) List.not_mem_nil]
      have huse : Function.update s.ownerUse receiver t'.election.phase.use = s.ownerUse :=
        update_ownerUse hlive (congrArg ElectionPhase.use hphase.symm)
      show s.ownerLock.Tracks (Function.update s.ownerUse receiver t'.election.phase.use)
      rw [huse]
      exact ho.lock
    · rw [hheld]
      exact ho.own receiver term hlive (hphase ▸ hterm)
    · rw [hheld]
      exact hmem
  | grantsOwner tab hlive hphase lock hgrant => exact ho.grantsOwner hs hlive hgrant
  | refusesOwner tab hlive hphase =>
    have hnone : (s.tabs tab).lockRefused.election.phase.use = .none ∧
        (s.tabs tab).lockRefused.election.phase.term? = none ∧
        ∀ term, (s.tabs tab).lockRefused.election.phase ≠ .owner term ∧
          (s.tabs tab).lockRefused.election.phase ≠ .leaving term true := by
      unfold Tab.lockRefused
      dsimp only
      split <;> exact ⟨rfl, rfl, fun term => ⟨by simp, by simp⟩⟩
    refine ho.electionStep hs hlive rfl rfl rfl rfl rfl rfl ?_ (fun term hterm => ?_) hnone.2.2
      (fun _ _ _ h => h) ho.sound
    · rw [hnone.1]
      exact ho.lock.withdraw (by rw [ownerUse_of_live hlive, hphase]; rfl)
    · rw [hnone.2.1] at hterm
      cases hterm
  | grantsTerm tab hlive hidle term hphase lock hgrant => exact ho.grantsTerm hs hlive hphase hgrant
  | refusesTerm tab hlive term hphase =>
    have hnone : (s.tabs tab).lockRefused.election.phase.use = .none ∧
        (s.tabs tab).lockRefused.election.phase.term? = none ∧
        ∀ term, (s.tabs tab).lockRefused.election.phase ≠ .owner term ∧
          (s.tabs tab).lockRefused.election.phase ≠ .leaving term true := by
      unfold Tab.lockRefused
      dsimp only
      split <;> exact ⟨rfl, rfl, fun term => ⟨by simp, by simp⟩⟩
    refine ho.electionStep hs hlive rfl rfl rfl rfl rfl rfl ?_ (fun term hterm => ?_) hnone.2.2
      (fun claim other _ hmem => ?_) fun claim => ?_
    · rw [hnone.1]
      exact ho.lock.letGo (by rw [ownerUse_of_live hlive, hphase]; rfl)
    · rw [hnone.2.1] at hterm
      cases hterm
    · exact held_updateTermLock (f := fun lock => lock.withdraw (.own tab)) id hmem
    · exact sound_updateTermLock (f := fun lock => lock.withdraw (.own tab)) (fun h =>
        h.withdraw _) (ho.sound claim)
  | letsTermGo tab hlive term hphase =>
    refine ho.electionStep hs hlive rfl rfl rfl rfl rfl rfl ?_ (fun term' hterm => ?_) (fun term' =>
        ⟨by simp [Tab.termLetGo], by simp [Tab.termLetGo]⟩)
      (fun claim other hne hmem => ?_) fun claim => ?_
    · have huse : Function.update s.ownerUse tab WebLock.Use.held = s.ownerUse :=
        update_ownerUse hlive (by rw [hphase]; rfl)
      show s.ownerLock.Tracks (Function.update s.ownerUse tab WebLock.Use.held)
      rw [huse]
      exact ho.lock
    · rw [hphase]
      exact hterm
    · exact held_updateTermLock (f := fun lock => lock.letGo (.own tab)) (letGo_held hne) hmem
    · exact sound_updateTermLock (f := fun lock => lock.letGo (.own tab)) (fun h => h.letGo _)
        (ho.sound claim)
  | letsOwnerGo tab hlive term hphase =>
    refine ho.electionStep hs hlive rfl rfl rfl rfl rfl rfl ?_ (fun term' hterm => by cases hterm)
        (fun term' => ⟨by simp [Tab.ownerLetGo], by simp [Tab.ownerLetGo]⟩)
      (fun _ _ _ h => h) ho.sound
    exact ho.lock.letGo (by rw [ownerUse_of_live hlive, hphase]; rfl)

theorem Moves.owned (hm : Moves settings discipline s s') (hs : s.Grounded)
    (ho : Owned settings s) : Owned settings s' :=
  moves_invariant (fun _ _ hground hP hmove => hmove.owned hground hP) hm hs ho

theorem run_owned {es : List SystemEvent} (hrun : (systemRuns settings).run es = some s) :
    Owned settings s :=
  (run_moves hrun).1.owned init_grounded init_owned

/-- **One owner at a time.** In every run of any number of tabs, whatever joins, releases, crashes
and refused locks it has, the record of what was said and done in the terms falls into the turns of
one tab after the other: each begins with its claim and ends with its goodbye, after which nothing
of it follows, and the goodbye comes once every write of another tab that was begun has been
answered. Between its claim and its goodbye a tab that has not crashed holds the ownership lock and
its term's lock, alone. -/
theorem single_owner {es : List SystemEvent} (hrun : (systemRuns settings).run es = some s) :
    SingleOwner settings s :=
  (run_owned hrun).singleOwner (run_moves hrun).2

/-- Tab 1 serves a write of its own and releases the configuration, and tab 2 takes over. -/
def handover : List SystemEvent :=
  [.join 1, .join 2, .ownerGranted 1, .termGranted 1, .goOn 1, .goOn 1, .port 1 .opened,
    .port 1 (.status .open), .goOn 1,
    .send 1 [7], .port 1 (.jobStarted false), .port 1 .chunkTaken, .port 1 (.jobReported 0),
    .goOn 1, .release 1, .port 1 .tornDown,
    .port 1 .writesAnswered, .goOn 1, .goOn 1, .goOn 1, .termLetGo 1, .ownerLetGo 1,
    .ownerGranted 2, .termGranted 2]

/-- The settings of tabs without a limit. -/
def plainSettings : ClientId → TabSettings := fun _ => ⟨.infinity, true, 2⟩

theorem single_owner_handover :
    ∃ s, (systemRuns plainSettings).run handover = some s ∧ SingleOwner plainSettings s ∧
    (1, claimOf plainSettings 1 0) ∈ s.log ∧ (1, Tab.releaseOf 1 0) ∈ s.log ∧
      (2, claimOf plainSettings 2 1) ∈ s.log := by
  obtain ⟨s, hrun, hlog⟩ :=
      (Option.any_eq_true _ _).mp (show ((systemRuns plainSettings).run handover).any (fun s =>
    decide ((1, claimOf plainSettings 1 0) ∈ s.log ∧ (1, Tab.releaseOf 1 0) ∈ s.log ∧
        (2, claimOf plainSettings 2 1) ∈ s.log)) = true by
      decide +kernel)
  exact ⟨s, hrun, single_owner hrun, of_decide_eq_true hlog⟩

end System

end SerialBroker
