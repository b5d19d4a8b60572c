import SerialBroker.Client.TabSound

/-!
# Every step keeps a tab sound

One lemma for each thing a tab does in a step: running one effect of the terms, taking the port and
giving it up, issuing a write, hearing from the port. `step_sound` puts them together. A check that
makes a term current at a tab that holds the port itself is the one step that can leave a request
behind: `handsOver` says that there is none to leave.
-/

namespace SerialBroker

namespace Tab

variable {t t' : Tab} {config : TabConfig} {stack : List TurnFrame} {effect : TermEffect}
  {effects : List TermEffect}
  {message : ProtocolMessage} {h : Holder} {a : TermId} {r : RequestId}

/-! ### the effects of the terms -/

/-- The next effect is taken off the turn. -/
theorem Based.takeEffect (hb : t.Based) (hstack : t.stack = .effects (effect :: effects) :: stack) :
    ({ t with stack := .effects effects :: stack } : Tab).Based := by
  have hfrom : ∀ l, .effects l ∈ TurnFrame.effects effects :: stack →
      ∃ k, .effects k ∈ t.stack ∧ ∀ e ∈ l, e ∈ k := by
    intro l hl
    rcases List.mem_cons.mp hl with heq | hl
    · cases heq
      exact ⟨_, hstack ▸ List.mem_cons_self, fun e he => List.mem_cons_of_mem _ he⟩
    · exact ⟨l, hstack ▸ List.mem_cons_of_mem _ hl, fun _ => id⟩
  exact { hb with
    withdrawing := fun hin =>
      hb.withdrawing (hstack ▸ List.mem_cons_of_mem _ ((List.mem_cons.mp hin).resolve_left nofun))
    starting := fun a hin => by
      have hbefore : TurnFrame.takeOwn a ∈ t.stack :=
        hstack ▸ List.mem_cons_of_mem _ ((List.mem_cons.mp hin).resolve_left nofun)
      obtain ⟨-, -, frames, heq, hcallbacks⟩ := hb.starting a hbefore
      rw [hstack] at heq
      cases frames with
      | nil => cases heq
      | cons f frames =>
        obtain ⟨rfl, -⟩ := List.cons.inj heq
        cases hcallbacks _ List.mem_cons_self
    ended := fun l hl key a c hended => by
      obtain ⟨k, hk, hsub⟩ := hfrom l hl
      exact hb.ended k hk key a c (hsub _ hended)
    applied := fun l hl message happlied => by
      obtain ⟨k, hk, hsub⟩ := hfrom l hl
      exact hb.applied k hk message (hsub _ happlied) }

theorem Withdraws.takeEffect (hw : t.Withdraws)
    (hstack : t.stack = .effects (effect :: effects) :: stack) :
    ({ t with stack := .effects effects :: stack } : Tab).Withdraws := by
  intro h
  refine (hw h).imp_left fun hin => ?_
  rw [hstack] at hin
  exact List.mem_cons_of_mem _ ((List.mem_cons.mp hin).resolve_left nofun)

/-- The ends that wait still do, but for the one that is taken. -/
theorem EndsWaiting.takeEffect {p : Bool → Prop} (h : t.EndsWaiting p)
    (hstack : t.stack = .effects (effect :: effects) :: stack) :
    ({ t with stack := .effects effects :: stack } : Tab).EndsWaiting p ∨
      ∃ key a c, effect = .ended key a c ∧ p c := by
  obtain ⟨l, hin, key, a, c, hended, hp⟩ := h
  rw [hstack] at hin
  rcases List.mem_cons.mp hin with heq | hin
  · cases heq
    rcases List.mem_cons.mp hended with heq | hended
    · exact Or.inr ⟨key, a, c, heq.symm, hp⟩
    · exact Or.inl ⟨effects, List.mem_cons_self, key, a, c, hended, hp⟩
  · exact Or.inl ⟨l, List.mem_cons_of_mem _ hin, key, a, c, hended, hp⟩

theorem Sound.takeEffect (hs : t.Sound) (hstack : t.stack = .effects (effect :: effects) :: stack)
    (hne : ∀ key a c, effect ≠ .ended key a c) :
    ({ t with stack := .effects effects :: stack } : Tab).Sound where
  toBased := hs.toBased.takeEffect hstack
  withdraws := hs.withdraws.takeEffect hstack
  led hopen hcurrent := (hs.led hopen hcurrent).imp_right <| Or.imp_right fun hends =>
    (hends.takeEffect hstack).resolve_right fun ⟨key, a, c, heq, _⟩ => hne key a c heq
  settled hcan r a hstuck := by
    rcases hs.settled hcan r a hstuck with hin | hends
    · rw [hstack] at hin
      exact Or.inl (List.mem_cons_of_mem _ ((List.mem_cons.mp hin).resolve_left nofun))
    · exact Or.inr ((hends.takeEffect hstack).resolve_right fun ⟨key, a, c, heq, _⟩ =>
        hne key a c heq)

theorem Sound.withdraw (hs : t.Sound) (howner : t.election.isOwner = false) : t.withdraw.Sound := by
  have hmem : ∀ f, f ∈ t.withdraw.stack → f.isCallback = false → f = .withdraw ∨ f ∈ t.stack := by
    intro f hin hf
    rcases List.mem_cons.mp hin with rfl | hin
    · cases hf
    · exact List.mem_cons.mp hin
  exact {
    hs with
    withdrawing := fun _ => rfl
    disposed := fun hd => ⟨(hs.disposed hd).1, Or.inr rfl⟩
    stopped := fun _ => Or.inr rfl
    owner := fun hown => absurd (howner.symm.trans hown) nofun
    starting := fun a hin => by
      have hown := (hs.starting a ((hmem _ hin rfl).resolve_left nofun)).1
      exact absurd (howner.symm.trans hown) nofun
    ended := fun l hl => hs.ended l ((hmem _ hl rfl).resolve_left nofun)
    applied := fun l hl => hs.applied l ((hmem _ hl rfl).resolve_left nofun)
    withdraws := fun _ => Or.inl (List.mem_cons_of_mem _ List.mem_cons_self)
    led := hs.led.push.push
    settled := hs.settled.push.push }

theorem Sound.applyStatus (hs : t.Sound) {status : SerialBrokerStatus} {maxTabs : MaxTabs}
    (hcurrent : t.terms.current ≠ none) :
    (t.applyStatus config status maxTabs).Sound := by
  unfold Tab.applyStatus
  split
  · exact hs
  · next hguard =>
    simp only [not_or, Bool.not_eq_true] at hguard
    split
    · exact hs.withdraw hguard.2.2
    · split
      · have hk : Kept config t (t.resendUnstarted config) := resendUnstarted_kept
        exact (hk.sound hs).setStatus fun _ hnone => absurd (hk.terms ▸ hnone) hcurrent
      · next hne => exact hs.setStatus fun hopen => absurd hopen hne

theorem Sound.apply (hs : t.Sound) (hcurrent : message.claim? ≠ none → t.terms.current ≠ none) :
    (t.apply config message).Sound := by
  unfold Tab.apply
  cases hbody : message.body with
  | writeRequest requestId payload term => exact performWriteForPeer_kept.sound hs
  | writeReady requestId term question =>
    have hk : Kept config t (t.approve requestId term).1 := approve_kept
    exact (hk.trans send_kept).sound hs
  | writeApproval requestId term approved question =>
    have hk : Kept config t (t.takeApproval ⟨message.sender, requestId⟩ term approved) :=
      takeApproval_kept
    exact hk.sound hs
  | writeResult requestId ok error term => exact (handleResult_kept hs.toBased.writesSound).sound hs
  | dataReceived | dataSent | error => exact hs.push rfl
  | status status maxTabs term =>
    exact hs.applyStatus (hcurrent (by simp [ProtocolMessage.claim?, hbody]))
  | statusRequest | ownerClaimed | ownerReleased => exact hs

/-- The end of a term is handled, and hands on what waited for it. -/
theorem Sound.termEnded (hs : t.Sound) {key : EntryId} {term : TermId} {wasCurrent : Bool}
    (hstack : t.stack = .effects (.ended key term wasCurrent :: effects) :: stack) :
    (({ t with stack := .effects effects :: stack } : Tab).termEnded config term
      wasCurrent).Sound := by
  have hb := hs.toBased.takeEffect hstack
  have hw := hs.withdraws.takeEffect hstack
  have hled : t.status = .open → t.terms.current = none → t.election.isOwner = true ∨
      t.isReleased = true ∨
      ({ t with stack := .effects effects :: stack } : Tab).EndsWaiting (· = true) ∨
        wasCurrent = true := by
    intro hopen hcurrent
    rcases hs.led hopen hcurrent with h | h | h
    · exact Or.inl h
    · exact Or.inr (Or.inl h)
    · rcases h.takeEffect hstack with h | ⟨k, a, c, heq, hc⟩
      · exact Or.inr (Or.inr (Or.inl h))
      · cases heq
        exact Or.inr (Or.inr (Or.inr hc))
  change ({ t with stack := .effects effects :: stack } : Tab).status = .open →
    ({ t with stack := .effects effects :: stack } : Tab).terms.current = none →
    ({ t with stack := .effects effects :: stack } : Tab).election.isOwner = true ∨
    ({ t with stack := .effects effects :: stack } : Tab).isReleased = true ∨ _ at hled
  generalize ({ t with stack := .effects effects :: stack } : Tab) = u at hb hw hled
  have hk : Kept config u (u.handleTermEnded config term) := handleTermEnded_kept
  have hkb := hk.based hb
  have hsettled : (u.handleTermEnded config term).Settled := fun hcan r a hstuck =>
    absurd hstuck (handleTermEnded_not_stuck hb.writesSound (hk.canHandOn.mp hcan) r a)
  unfold Tab.termEnded
  dsimp only
  split
  · refine ⟨hkb.setStatus (fun h => by cases h), (hk.withdraws hw).setStatus, fun hopen _ =>
      Or.inr (Or.inl ?_),
      hsettled.setStatus⟩
    rw [(setStatus_rest _ _).2.2.2.1]
    exact setStatus_open (by decide) hopen
  · next hnot =>
    refine ⟨hkb, hk.withdraws hw, fun hopen hcurrent => ?_, hsettled⟩
    rw [hk.election, hk.isReleased, hk.endsWaiting]
    rcases hled (hk.status ▸ hopen) (hk.terms ▸ hcurrent) with h | h | h | h
    · exact Or.inl h
    · exact Or.inr (Or.inl h)
    · exact Or.inr (Or.inr h)
    · by_cases howner : u.election.isOwner = true
      · exact Or.inl howner
      · refine Or.inr (Or.inl ?_)
        by_contra hreleased
        refine hnot ⟨h, by rwa [hk.election], by rwa [hk.isReleased], fun hfailed => ?_⟩
        have hstatus : (u.handleTermEnded config term).status = .failed :=
          (of_decide_eq_true hfailed).1
        rw [hopen] at hstatus
        cases hstatus

theorem Sound.runEffect (hs : t.Sound) (hstack : t.stack = .effects (effect :: effects) :: stack) :
    (({ t with stack := .effects effects :: stack } : Tab).runEffect config effect).Sound := by
  cases effect with
  | apply message =>
    have htaken := hs.takeEffect hstack nofun
    unfold Tab.runEffect
    dsimp only
    split
    · exact htaken
    · next hlive =>
      refine htaken.apply fun hclaim => ?_
      exact (hs.applied _ (hstack ▸ List.mem_cons_self) message List.mem_cons_self
        hclaim).resolve_right hlive
  | check key claim => exact (hs.takeEffect hstack nofun).act
  | watch key claim => exact (hs.takeEffect hstack nofun).act
  | abort key => exact (hs.takeEffect hstack nofun).act
  | ended key term wasCurrent => exact hs.termEnded hstack

/-- **Going on with a turn keeps a tab sound.** -/
theorem Sound.goOn (hs : t.Sound) (hstep : t.goOn config = some t') : t'.Sound := by
  unfold Tab.goOn at hstep
  split at hstep
  · cases hstep
  · next stack hstack =>
    cases hstep
    refine ⟨hs.toBased.pop hstack, hs.withdraws.pop hstack nofun, fun hopen hcurrent => ?_,
      fun hcan r a hstuck => ?_⟩
    · refine (hs.led hopen hcurrent).imp_right (Or.imp_right fun ⟨l, hin, hend⟩ => ?_)
      rw [hstack] at hin
      rcases List.mem_cons.mp hin with heq | hin
      · cases heq
        obtain ⟨_, _, _, hmem, _⟩ := hend
        exact absurd hmem List.not_mem_nil
      · exact ⟨l, hin, hend⟩
    · rcases hs.settled hcan r a hstuck with hin | ⟨l, hin, hend⟩
      · rw [hstack] at hin
        exact Or.inl ((List.mem_cons.mp hin).resolve_left nofun)
      · rw [hstack] at hin
        rcases List.mem_cons.mp hin with heq | hin
        · cases heq
          obtain ⟨_, _, _, hmem, _⟩ := hend
          exact absurd hmem List.not_mem_nil
        · exact Or.inr ⟨l, hin, hend⟩
  · next hstack =>
    cases hstep
    exact hs.runEffect hstack
  · next hstack =>
    cases hstep
    exact hs.goOn_emitted hstack
  · next hstack =>
    cases hstep
    exact hs.goOn_announcing hstack
  · next hstack =>
    cases hstep
    exact hs.goOn_takeOwn hstack
  · next hstack =>
    cases hstep
    exact hs.goOn_withdraw hstack

/-! ### what the application does -/

theorem Sound.add (hs : t.Sound) (hreleased : t.isReleased = false)
    (hwithdrawn : t.isWithdrawn = false) {payload : Payload} :
    (t.add config payload).Sound := by
  unfold Tab.add
  refine dispatch_kept.sound ?_
  have hmem : ∀ w ∈ t.writes ++ [PendingWrite.mk t.issued.length payload none none false],
      w ∈ t.writes ∨
      w = ⟨t.issued.length, payload, none, none, false⟩ :=
        fun w hw => (List.mem_append.mp hw).imp_right List.mem_singleton.mp
  exact {
    hs with
    ids := by
      rw [List.map_append, List.map_singleton]
      refine List.nodup_append.mpr ⟨hs.ids, List.nodup_singleton _, fun r hr r' hr' => ?_⟩
      obtain ⟨w, hw, rfl⟩ := List.mem_map.mp hr
      rw [List.mem_singleton.mp hr']
      exact Nat.ne_of_lt (hs.fresh w hw)
    fresh := fun w hw => by
      rw [List.length_append, List.length_singleton]
      rcases hmem w hw with hw | rfl
      · exact Nat.lt_succ_of_lt (hs.fresh w hw)
      · exact Nat.lt_succ_self _
    released := fun h => absurd (hreleased.symm.trans h) nofun
    disposed := fun h => by
      rcases (hs.disposed h).2 with h | h
      · exact absurd (hreleased.symm.trans h) nofun
      · exact absurd (hwithdrawn.symm.trans h) nofun
    withdraws := fun h => absurd (hwithdrawn.symm.trans h) nofun
    settled := fun hcan r a ⟨hended, w, hw, hid, haddressed, hnone⟩ => by
      rcases hmem w hw with hw | rfl
      · exact hs.settled hcan r a ⟨hended, w, hw, hid, haddressed, hnone⟩
      · cases haddressed }

theorem Sound.sendPayload (hs : t.Sound) {payload : Payload} :
    (t.sendPayload config payload).Sound := by
  unfold Tab.sendPayload
  split
  · exact hs
  · next hguard =>
    simp only [not_or, Bool.not_eq_true] at hguard
    exact hs.add hguard.1 hguard.2

/-- A tab that has released itself, has no writes, and serves no term. -/
theorem Sound.giveUp (hs : t.Sound) (hempty : t.writes = []) (holder : Option Holder)
    (hholder : ∀ a, ({ t with holder } : Tab).held ≠ some (a, .serving)) : ({ t with
    isReleased := true
    holder } : Tab).Sound :=
  { hs with
    released := fun _ => hempty
    disposed := fun _ => ⟨hempty, Or.inl rfl⟩
    stopped := fun _ => Or.inl rfl
    serving := fun a h => absurd h (hholder a)
    givenUp := fun _ _ _ _ => rfl
    led := fun _ _ => Or.inr (Or.inl rfl) }

/-- Settling the writes does not look at whether the tab is released. -/
theorem settleAll_released {requestIds : List RequestId} {outcome : WriteOutcome} :
    ({ t with isReleased := true } : Tab).settleAll requestIds outcome =
      { t.settleAll requestIds outcome with isReleased := true } := by
  unfold settleAll
  induction requestIds generalizing t with
  | nil => rfl
  | cons requestId requestIds ih =>
    have hone : ({ t with
        isReleased := true } : Tab).settle requestId outcome =
          { t.settle requestId outcome with isReleased := true } := by
      have hpending :
          ({ t with isReleased := true } : Tab).pending? requestId = t.pending? requestId := rfl
      unfold settle
      rw [hpending]
      cases t.pending? requestId <;> rfl
    rw [List.foldl_cons, List.foldl_cons, hone]
    exact ih

theorem Sound.release (hs : t.Sound) : t.release.Sound := by
  have hfail : ({ t with isReleased := true } : Tab).failAll (.plain .CONFIGURATION_RELEASED) =
      { t.failAll (.plain .CONFIGURATION_RELEASED) with isReleased := true } := settleAll_released
  have hk : Kept ⟨⟨.infinity, true, 0⟩, 0⟩ t (t.failAll (.plain .CONFIGURATION_RELEASED)) :=
    failAll_kept
  have hempty : (t.failAll (.plain .CONFIGURATION_RELEASED)).writes = [] := failAll_writes
  unfold Tab.release
  rw [hfail]
  generalize t.failAll (.plain .CONFIGURATION_RELEASED) = failed at hk hempty
  dsimp only
  split
  · refine (hk.sound hs).giveUp hempty (some _) fun a h => ?_
    cases h
  · next hnone =>
    refine (hk.sound hs).giveUp hempty failed.holder fun a h => ?_
    obtain ⟨holder, hholder, heq⟩ := Option.map_eq_some_iff.mp h
    have hserving : failed.serving? = some holder :=
      Option.filter_eq_some_iff.mpr ⟨hholder, decide_eq_true (congrArg Prod.snd heq)⟩
    rw [show failed.serving? = none from hnone] at hserving
    cases hserving

/-! ### what the port does -/

theorem hasStage_of_holder (hholder : t.holder = some h) :
    t.HasStage h := by rw [HasStage, held, hholder, Option.map_some]

theorem broadcastStatus_kept {status : SerialBrokerStatus} :
    Kept config t (t.broadcastStatus config status) := by
  unfold broadcastStatus
  split
  · exact send_kept
  · exact Kept.refl config t

/-- A tab that has given the port up goes on doing so. -/
theorem Sound.setHolder_of_released (hs : t.Sound) (hreleased : t.isReleased = true)
    (hstage : h.stage ≠ .serving) :
    (t.setHolder h).Sound := by
  have hself : ({ t with isReleased := true, holder := some h } : Tab) = t.setHolder h := by
    rw [setHolder, ← hreleased]
  rw [← hself]
  refine hs.giveUp (hs.released hreleased) (some h) fun a heq => hstage ?_
  exact congrArg Prod.snd (Option.some.inj heq)

theorem loseConnection_same {connection : ConnectionId} :
    (h.loseConnection connection).term = h.term ∧
      (h.loseConnection connection).stage = h.stage := by
  unfold Holder.loseConnection
  split <;> exact ⟨rfl, rfl⟩

theorem chunkTaken_same {job : Job} {connection : ConnectionId} {offset bytes : Nat} :
    (h.chunkTaken job connection offset bytes).term = h.term ∧
      (h.chunkTaken job connection offset bytes).stage = h.stage := by
  unfold Holder.chunkTaken
  dsimp only
  split
  · split <;> exact ⟨rfl, rfl⟩
  · exact ⟨rfl, rfl⟩

/-- What an event at the port does to a tab. -/
inductive PortMoves (config : TabConfig) (t : Tab) : Tab → Prop
  | kept {u : Tab} (hk : Kept config t u) : PortMoves config t u
  | called {u : Tab} (frame : TurnFrame) (hf : frame.isCallback = true) (hk : Kept config t u) :
      PortMoves config t (u.push frame)
  | reported (status : SerialBrokerStatus) (howner : t.election.isOwner = true)
      (hstarting : status = .open → t.isStarting = false) :
      PortMoves config t (t.portStatus config status)
  | givenUp (h : Holder) (hreleased : t.isReleased = true) (hstage : h.stage ≠ .serving) :
      PortMoves config t (t.setHolder h)
  | stopped (h : Holder) (hstack : t.stack = []) (hreleased : t.isReleased = true) :
      PortMoves config t (t.stopped config h)

theorem answerJob_moves (hb : t.Based) (hstage : t.HasStage h) {ended : EndedJob} :
    PortMoves config t (t.answerJob config h ended) := by
  unfold answerJob
  dsimp only
  generalize hnext : ({ h with
    ended := h.ended.filter fun e => e.job.id ≠ ended.job.id
    accepted := h.accepted.finish ended.job.key ended.outcome } : Holder) = holder
  have hstage' : t.HasStage holder := hnext ▸ hstage
  have hk : Kept config t (t.setHolder holder) := setHolder_kept hstage'
  have hanswered : Kept config t (if ended.job.key.origin = config.clientId
      then (t.setHolder holder).handleResult config ended.job.key.requestId (some h.term)
        ended.outcome
      else (t.setHolder holder).finishedForPeer config holder ended.job.key ended.outcome) := by
    split
    · exact hk.trans (handleResult_kept (hk.based hb).writesSound)
    · exact hk.trans (finishedForPeer_kept (hk.hasStage hstage'))
  split
  · exact .called _ rfl hanswered
  · exact .kept hanswered

/-- What happens at the port, but for what the supervisor reports, happens between two turns. -/
theorem portStep_moves (hb : t.Based) {event : PortEvent} (hholder : t.holder = some h)
    (hstarting : event = .status .open → t.isStarting = false)
    (hturn : t.stack = [] ∨ (∃ status, event = .status status) ∨
      (∃ payload text, event = .data payload text) ∨ ∃ error, event = .error error)
    (hstep : t.portStep config h event = some t') : PortMoves config t t' := by
  have hstage := hasStage_of_holder hholder
  have hset : ∀ h', h'.term = h.term → h'.stage = h.stage → Kept config t (t.setHolder h') := by
    intro h' hterm hsame
    exact setHolder_kept (by rw [HasStage, hterm, hsame]; exact hstage)
  have hreleased : h.stage ≠ .serving → t.isReleased = true :=
    fun hne => hb.givenUp h.term h.stage hstage hne
  cases event with
  | opened =>
    obtain ⟨-, heq⟩ := Option.ite_none_right_eq_some.mp hstep
    exact Option.some.inj heq ▸ .kept (hset _ rfl rfl)
  | lost => exact Option.some.inj hstep ▸ .kept (hset _ rfl rfl)
  | status status =>
    obtain ⟨hserving, heq⟩ := Option.ite_none_right_eq_some.mp hstep
    have howner := (hb.serving h.term (by rw [hstage, hserving])).1
    exact Option.some.inj heq ▸ .reported status howner fun hopen => hstarting (by rw [hopen])
  | data payload text =>
    obtain ⟨-, heq⟩ := Option.ite_none_right_eq_some.mp hstep
    exact Option.some.inj heq ▸ .called _ rfl (.refl config t)
  | error error =>
    obtain ⟨-, heq⟩ := Option.ite_none_right_eq_some.mp hstep
    exact Option.some.inj heq ▸ .called _ rfl (.refl config t)
  | restated =>
    obtain ⟨-, heq⟩ := Option.ite_none_right_eq_some.mp hstep
    exact Option.some.inj heq ▸ .kept broadcastStatus_kept
  | jobStarted isExpired =>
    simp only [Tab.portStep] at hstep
    split at hstep
    · exact Option.some.inj hstep ▸ .kept (startJob_kept hstage)
    · cases hstep
  | askExpired =>
    simp only [Tab.portStep] at hstep
    split at hstep
    · exact Option.some.inj hstep ▸ .kept (hset _ rfl rfl)
    · cases hstep
  | jobWentOn =>
    simp only [Tab.portStep] at hstep
    split at hstep
    · exact Option.some.inj hstep ▸ .kept (goOnWithWrite_kept hstage)
    · cases hstep
  | chunkTaken =>
    simp only [Tab.portStep] at hstep
    split at hstep
    · cases hstep
      exact .kept ((hset _ chunkTaken_same.1 chunkTaken_same.2).trans act_kept)
    · cases hstep
  | chunkFailed =>
    simp only [Tab.portStep] at hstep
    split at hstep
    · exact Option.some.inj hstep ▸ .kept (hset _ loseConnection_same.1 loseConnection_same.2)
    · cases hstep
  | chunkTimedOut =>
    simp only [Tab.portStep] at hstep
    split at hstep
    · exact Option.some.inj hstep ▸ .kept (hset _ rfl rfl)
    · cases hstep
  | stallEnded isFailed =>
    simp only [Tab.portStep] at hstep
    split at hstep
    · refine Option.some.inj hstep ▸ .kept ?_
      split
      · exact hset _ loseConnection_same.1 loseConnection_same.2
      · exact hset _ rfl rfl
    · cases hstep
  | jobExpired id =>
    simp only [Tab.portStep] at hstep
    split at hstep
    · exact Option.some.inj hstep ▸ .kept (hset _ rfl rfl)
    · cases hstep
  | jobReported id =>
    simp only [Tab.portStep] at hstep
    split at hstep
    · exact Option.some.inj hstep ▸ answerJob_moves hb hstage
    · cases hstep
  | tornDown =>
    obtain ⟨hstopping, heq⟩ := Option.ite_none_right_eq_some.mp hstep
    exact Option.some.inj heq ▸ .givenUp _ (hreleased (by rw [hstopping]; decide)) (by simp)
  | writesAnswered =>
    simp only [Tab.portStep] at hstep
    split at hstep
    · next hanswering =>
      obtain ⟨-, heq⟩ := Option.ite_none_right_eq_some.mp hstep
      exact Option.some.inj heq ▸
        .stopped h (by simpa using hturn) (hreleased (by rw [hanswering]; simp))
    · cases hstep
  | answersGivenUp =>
    simp only [Tab.portStep] at hstep
    split at hstep
    · next hanswering =>
      obtain ⟨-, heq⟩ := Option.ite_none_right_eq_some.mp hstep
      exact Option.some.inj heq ▸
        .stopped h (by simpa using hturn) (hreleased (by rw [hanswering]; simp))
    · cases hstep

theorem portEvent_moves (hb : t.Based) {event : PortEvent}
    (hstep : t.step config (.port event) = some t') : PortMoves config t t' := by
  have hevent : (t.holder.bind fun h => t.portStep config h event) = some t' →
      (event = .status .open → t.isStarting = false) →
      (t.stack = [] ∨ (∃ status, event = .status status) ∨
        (∃ payload text, event = .data payload text) ∨ ∃ error, event = .error error) →
      PortMoves config t t' := by
    intro heq hstarting hturn
    obtain ⟨h, hholder, hport⟩ := Option.bind_eq_some_iff.mp heq
    exact portStep_moves hb hholder hstarting hturn hport
  unfold Tab.step at hstep
  dsimp only at hstep
  split at hstep
  · split at hstep
    · cases hstep
    · next hstarting =>
      obtain ⟨-, heq⟩ := Option.ite_none_right_eq_some.mp hstep
      refine hevent heq (fun hopen => ?_) (Or.inr (Or.inl ⟨_, rfl⟩))
      cases hopen
      simpa using hstarting
  · obtain ⟨-, heq⟩ := Option.ite_none_right_eq_some.mp hstep
    exact hevent heq nofun (Or.inr (Or.inr (Or.inl ⟨_, _, rfl⟩)))
  · obtain ⟨-, heq⟩ := Option.ite_none_right_eq_some.mp hstep
    exact hevent heq nofun (Or.inr (Or.inr (Or.inr ⟨_, rfl⟩)))
  · next hother _ _ =>
    obtain ⟨hstack, heq⟩ := Option.ite_none_right_eq_some.mp hstep
    exact hevent heq (fun hopen => absurd hopen (hother _)) (Or.inl hstack)

/-- The tab has stopped, says so, and ends its term. -/
theorem Sound.stoppedHolding (hs : t.Sound) (hstack : t.stack = [])
    (hreleased : t.isReleased = true) : (t.stopped config h).Sound := by
  have hover : (t.setHolder { h with stage := .stopped }).Sound :=
    hs.setHolder_of_released hreleased nofun
  have hsent : (((t.setHolder { h with stage := .stopped }).act (.requestGoodbye h.term)).send
      config .all (.ownerReleased h.term)).Sound :=
    send_kept.sound hover.act
  refine (hsent.stopElection (Or.inl hreleased)).handleTerms ?_ (fun _ => ?_) fun _ _ _ r a => ?_
  · exact (stopElection_rest _).2.1.trans hstack
  · exact (stopElection_rest _).2.2.2.1.trans hreleased
  · exact not_stuck_of_empty ((stopElection_rest _).1.trans (hs.released hreleased))

theorem PortMoves.sound (hm : PortMoves config t t') (hs : t.Sound) : t'.Sound := by
  cases hm with
  | kept hk => exact hk.sound hs
  | called frame hf hk => exact (hk.sound hs).push hf
  | reported status howner hstarting =>
    have hk : Kept config t (t.broadcastStatus config status) := broadcastStatus_kept
    refine (hk.sound hs).setStatus fun hopen hcurrent => ⟨hk.election ▸ howner, fun b hin => ?_⟩
    rw [hk.stack] at hin
    have hstarts : t.isStarting = true := List.any_eq_true.mpr ⟨_, hin, rfl⟩
    rw [hstarting hopen] at hstarts
    cases hstarts
  | givenUp h hreleased hstage => exact hs.setHolder_of_released hreleased hstage
  | stopped h hstack hreleased => exact hs.stoppedHolding hstack hreleased

/-! ### the election -/

theorem Sound.startTerm (hs : t.Sound) {term : TermId} (hstack : t.stack = [])
    (howner : t.election.isOwner = true)
    (hreleased : t.isReleased = false) (hcurrent : t.status = .open → t.terms.current ≠ none) :
    (t.startTerm config term).Sound := by
  unfold Tab.startTerm
  have hk : Kept config t (t.send config .all (.ownerClaimed term config.maxTabs)) := send_kept
  have hs' := hk.sound hs
  have hmem : ∀ f, f ∈ TurnFrame.takeOwn term ::
      (t.send config .all (.ownerClaimed term config.maxTabs)).stack → f = .takeOwn term := by
    intro f hin
    rw [hk.stack, hstack] at hin
    exact List.mem_singleton.mp hin
  exact {
    hs' with
    withdrawing := fun h => by cases hmem _ h
    serving := fun _ _ => ⟨howner, hreleased⟩
    givenUp := fun a stage h hne => absurd (congrArg Prod.snd (Option.some.inj h)).symm hne
    starting := fun a h => ⟨howner, hcurrent, [], by
      show _ :: (t.send config .all (.ownerClaimed term config.maxTabs)).stack = _
      rw [hmem _ h, hk.stack, hstack]
      rfl, nofun⟩
    ended := fun l h => by cases hmem _ h
    applied := fun l h => by cases hmem _ h
    withdraws := hs'.withdraws.push
    led := hs'.led.push
    settled := hs'.settled.push }

theorem Sound.termGranted (hs : t.Sound) {term : TermId} (hstack : t.stack = [])
    (hphase : t.election.phase = .locking term) :
    (t.termGranted config term).Sound := by
  have hnot : t.election.isOwner = false := by
    rw [Bool.eq_false_iff]
    intro howner
    have hholding := (hs.owner howner).2
    rw [hphase] at hholding
    cases hholding
  unfold Tab.termGranted
  split
  · next hstopped => exact hs.withElection Or.inl id (fun _ => hstopped) (fun h => ⟨h, rfl⟩) Or.inl
  · next hstopped =>
    have hwithdrawn : t.isWithdrawn = false := by
      rw [Bool.eq_false_iff]
      intro h
      rcases hs.withdraws h with hin | hdone
      · rw [hstack] at hin
        cases hin
      · exact hstopped hdone.2
    have hserving : ∀ a, t.held ≠ some (a, .serving) := fun a h => by
      rw [(hs.serving a h).1] at hnot
      cases hnot
    have hled : t.status = .open → t.terms.current = none → t.isReleased = true := by
      intro hopen hcurrent
      rcases hs.led hopen hcurrent with h | h | ⟨l, hin, -⟩
      · rw [h] at hnot
        cases hnot
      · exact h
      · rw [hstack] at hin
        cases hin
    have howner : ({ t with
        election := { t.election with phase := .owner term, isOwner := true } } : Tab).Sound :=
      { hs with
        leaving := nofun
        owner := fun _ => ⟨hwithdrawn, rfl⟩
        serving := fun a h => absurd h (hserving a)
        starting := fun a h => by
          rw [show ({ t with
            election := { t.election with
              phase := .owner term
              isOwner := true } } : Tab).stack = [] from hstack] at h
          cases h
        withdraws := fun h => absurd (hwithdrawn.symm.trans h) nofun
        led := fun _ _ => Or.inl rfl }
    dsimp only
    split
    · exact howner
    · next hreleased =>
      have hreleased : t.isReleased = false := by simpa using hreleased
      exact howner.startTerm hstack rfl hreleased fun hopen hcurrent =>
        by simp [hled hopen hcurrent] at hreleased

theorem Sound.lockRefused (hs : t.Sound) (hphase : t.election.phase.isHolding = false) :
    t.lockRefused.Sound := by
  refine hs.withElection Or.inl id (fun h => ?_) (fun h => ?_) Or.inl
  · dsimp only at h
    split at h <;> cases h
  · rw [(hs.owner h).2] at hphase
    cases hphase

/-! ### every step -/

/-- Whether `handleMessage` gives the message to the terms. -/
def hears (t : Tab) (message : ProtocolMessage) : Bool :=
  let isStale : Bool := match message.body with
    | .ownerClaimed .. | .status .. => t.election.isOwner
    | _ => false
  ¬ (t.isReleased ∨ ¬ t.isJoined ∨ t.isWithdrawn ∨ isStale)

theorem handleMessage_eq :
    t.handleMessage message = if t.hears message then t.handleTerms (.message message) else t := by
  by_cases hheard : t.hears message = true
  · rw [if_pos hheard]
    exact if_neg (of_decide_eq_true hheard)
  · rw [if_neg hheard]
    refine if_pos ?_
    by_contra hnot
    exact hheard (decide_eq_true hnot)

/-- No request waits unbegun for a term that has ended. -/
def hasNoneStuck (t : Tab) : Bool :=
  t.writes.all fun w => w.startedTerm ≠ none ∨
    w.addressedTerm.all fun term => t.terms.isEnded term = false

theorem not_stuck_of_hasNoneStuck (hnone : t.hasNoneStuck = true) : ¬ t.IsStuck r a := by
  rintro ⟨hended, w, hw, -, haddressed, hstarted⟩
  have h := List.all_eq_true.mp hnone w hw
  simp [hstarted, haddressed, hended] at h

/-- A check that gives a current term to a connected tab that holds the port and has none finds no
request stuck. -/
def handsOver (t : Tab) : TabEvent → Bool
  | .checkAnswered key .held =>
    ¬ ((t.terms.entryOf? key).any (fun known => known.phase = .checking) ∧ t.election.isOwner ∧
      t.status = .open ∧
      t.terms.current = none) ∨ t.hasNoneStuck
  | _ => true

theorem Sound.checkAnswered (hs : t.Sound) (hstack : t.stack = []) {key : EntryId}
    {answer : CheckAnswer}
    (hover : t.handsOver (.checkAnswered key answer) = true) :
    (t.handleTerms (.checkAnswered key answer)).Sound := by
  refine hs.handleTerms hstack nofun fun hopen hcurrent hgained => ?_
  rcases hgained with ⟨e, he, hc, heq⟩ | ⟨claim, heq⟩
  · cases heq
    have howner : t.election.isOwner = true ∨ t.isReleased = true := by
      rcases hs.led hopen hcurrent with h | h | ⟨l, hin, -⟩
      · exact Or.inl h
      · exact Or.inr h
      · rw [hstack] at hin
        cases hin
    rcases howner with howner | hreleased
    · have hentry : t.terms.entryOf? e.key = some e := hs.terms.entryOf?_iff.mpr ⟨he, rfl⟩
      have hnone : t.hasNoneStuck = true := by
        simpa [handsOver, hentry, hc, howner, hopen, hcurrent] using hover
      exact fun r a => not_stuck_of_hasNoneStuck hnone
    · exact fun r a => not_stuck_of_empty (hs.released hreleased)
  · cases heq

/-- **Every step keeps a tab sound.** -/
theorem Sound.step (hs : t.Sound) {event : TabEvent} (hover : t.handsOver event = true)
    (hstep : t.step config event = some t') :
    t'.Sound := by
  have hturn : ∀ {f : Tab → Option Tab}, t.turn f = some t' → t.stack = [] ∧ f t = some t' :=
      fun h =>
    Option.ite_none_right_eq_some.mp h
  unfold Tab.step at hstep
  cases event with
  | join =>
    obtain ⟨-, hstep⟩ := hturn hstep
    split at hstep
    · cases hstep
    · cases hstep
      have hjoined : ({ t with isJoined := true } : Tab).Sound := { hs with }
      exact (send_kept.sound hjoined).startElection
  | send payload =>
    obtain ⟨-, heq⟩ := Option.ite_none_right_eq_some.mp hstep
    exact Option.some.inj heq ▸ hs.sendPayload
  | release =>
    obtain ⟨-, heq⟩ := Option.ite_none_right_eq_some.mp hstep
    rw [← Option.some.inj heq]
    dsimp only
    split
    · exact hs
    · exact hs.release
  | retry =>
    obtain ⟨-, heq⟩ := Option.ite_none_right_eq_some.mp hstep
    rw [← Option.some.inj heq]
    dsimp only
    split
    · exact hs
    · exact send_kept.sound hs
  | goOn => exact hs.goOn hstep
  | writeDeadline requestId =>
    obtain ⟨-, heq⟩ := hturn hstep
    have hk : Kept config t (t.writeDeadline requestId) := writeDeadline_kept
    exact Option.some.inj heq ▸ hk.sound hs
  | port event => exact (portEvent_moves hs.toBased hstep).sound hs
  | ownerGranted term =>
    obtain ⟨-, hstep⟩ := hturn hstep
    obtain ⟨hphase, heq⟩ := Option.ite_none_right_eq_some.mp hstep
    have hlocking :
        ({ t with election := { t.election with phase := .locking term } } : Tab).Sound := by
      refine hs.withElection Or.inl id (fun h => by cases h) (fun h => ?_) Or.inl
      have hholding := (hs.owner h).2
      rw [hphase] at hholding
      cases hholding
    exact Option.some.inj heq ▸ hlocking.act
  | ownerRefused =>
    obtain ⟨-, hstep⟩ := hturn hstep
    obtain ⟨hphase, heq⟩ := Option.ite_none_right_eq_some.mp hstep
    exact Option.some.inj heq ▸ hs.lockRefused (by rw [hphase]; rfl)
  | electionRetried =>
    obtain ⟨-, hstep⟩ := hturn hstep
    obtain ⟨-, heq⟩ := Option.ite_none_right_eq_some.mp hstep
    exact Option.some.inj heq ▸ hs.startElection
  | termGranted =>
    obtain ⟨hstack, hstep⟩ := hturn hstep
    split at hstep
    · next hphase => exact Option.some.inj hstep ▸ hs.termGranted hstack hphase
    · cases hstep
  | termRefused =>
    obtain ⟨-, hstep⟩ := hturn hstep
    split at hstep
    · next hphase => exact Option.some.inj hstep ▸ hs.lockRefused (by rw [hphase]; rfl)
    · cases hstep
  | electionStopped =>
    obtain ⟨-, hstep⟩ := hturn hstep
    obtain ⟨⟨hreleased, -⟩, heq⟩ := Option.ite_none_right_eq_some.mp hstep
    exact Option.some.inj heq ▸ hs.stopElection (Or.inl hreleased)
  | termLetGo =>
    obtain ⟨-, hstep⟩ := hturn hstep
    split at hstep
    · next hphase =>
      have hstopped := hs.leaving (by rw [hphase]; rfl)
      exact Option.some.inj hstep ▸ hs.withElection Or.inl id (fun _ => hstopped) (fun h =>
        ⟨h, rfl⟩) Or.inl
    · cases hstep
  | ownerLetGo =>
    obtain ⟨hstack, hstep⟩ := hturn hstep
    split at hstep
    · next hphase =>
      have hstopped := hs.leaving (by rw [hphase]; rfl)
      refine Option.some.inj hstep ▸ hs.withElection Or.inl id nofun nofun fun howner =>
        Or.inr ⟨?_, hstack⟩
      refine (hs.stopped hstopped).resolve_right fun h => ?_
      rw [(hs.owner howner).1] at h
      cases h
    · cases hstep
  | releaseEnded =>
    obtain ⟨hstack, hstep⟩ := hturn hstep
    obtain ⟨⟨hreleased, -⟩, heq⟩ := Option.ite_none_right_eq_some.mp hstep
    have hdisposed : (t.handleTerms .dispose).Sound :=
        hs.handleTerms hstack (fun _ => hreleased) fun _ _ _ _ _ =>
      not_stuck_of_empty (hs.released hreleased)
    exact Option.some.inj heq ▸ hdisposed.setStatus nofun
  | message message =>
    obtain ⟨hstack, heq⟩ := hturn hstep
    rw [← Option.some.inj heq, handleMessage_eq]
    split
    · refine hs.handleTerms hstack nofun fun _ _ hgained => ?_
      rcases hgained with ⟨_, _, _, h⟩ | ⟨_, h⟩ <;> cases h
    · exact hs
  | checkAnswered key answer =>
    obtain ⟨hstack, heq⟩ := hturn hstep
    exact Option.some.inj heq ▸ hs.checkAnswered hstack hover
  | watchAnswered key isEnding =>
    obtain ⟨hstack, heq⟩ := hturn hstep
    refine Option.some.inj heq ▸ hs.handleTerms hstack nofun fun _ _ hgained => ?_
    rcases hgained with ⟨_, _, _, h⟩ | ⟨_, h⟩ <;> cases h
  | busReconnected =>
    obtain ⟨-, heq⟩ := hturn hstep
    rw [← Option.some.inj heq]
    unfold busReconnected
    split
    · exact hs
    · split
      · exact broadcastStatus_kept.sound hs
      · exact send_kept.sound hs

end Tab

end SerialBroker
