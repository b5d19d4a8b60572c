import SerialBroker.Client.TabSteps

/-!
# No write is stranded by the end of its term

Once the end of a term has been reported, a request that was addressed to it is handed to the
current term as soon as there is one and a connection, and until then the tab knows that the term
has ended. It depends on the memory of terms, which is bounded: a flood of claims of invented terms
makes a tab forget an ended term, and a request addressed to a term that is neither current nor
known to have ended is never handed on. `strandsNone` says what a step must not do,
`ended_strands_none` that nothing is stranded in a run of which no step does it, and
`not_ended_strands_none` is a run in which sixteen claims strand a write.
-/

namespace SerialBroker

namespace Tab

variable {t t' : Tab} {config : TabConfig} {stack : List TurnFrame} {effect : TermEffect}
  {effects : List TermEffect}
  {message : ProtocolMessage} {a : TermId} {r : RequestId} {input : TermInput}

/-- The input does not make the tab forget the end of a term that a pending request is addressed
to. -/
def keepsEnds (t : Tab) (input : TermInput) : Bool :=
  (t.terms.givenUp? input).all fun known => known.phase ≠ .ended ∨
    t.writes.all fun w => w.addressedTerm ≠ some known.term

/-- What a step does to the writes and the terms. -/
inductive Moves (config : TabConfig) (t t' : Tab) : Prop
  | idle (hwrites : t'.writes = t.writes) (hterms : t'.terms = t.terms)
  | worked (u v : Tab) (hstart : u.terms = t.terms)
      (hnew : ∀ w ∈ u.writes, w ∈ t.writes ∨ ∀ w₀ ∈ t.writes, w₀.requestId ≠ w.requestId)
      (hk : Kept config u v)
      (hwrites : t'.writes = v.writes) (hterms : t'.terms = v.terms) (hheld : t'.held = v.held)
      (hout : v.outbox ⊆ t'.outbox)
  | emptied (hempty : t'.writes = [])
  | handled (input : TermInput) (hinput : input ≠ .dispose) (hkeeps : t.keepsEnds input = true)
      (hwrites : t'.writes = t.writes)
      (hterms : t'.terms = (t.terms.handle t.nextKey input).1)

/-- A step that works on the writes, from a tab that differs in the turn only. -/
theorem Moves.ofKept {u : Tab} (hk : Kept config u t') (hwrites : u.writes = t.writes)
    (hterms : u.terms = t.terms) : Moves config t t' :=
  .worked u t' hterms (fun _ hw => Or.inl (hwrites ▸ hw)) hk rfl rfl rfl (List.Subset.refl _)

theorem Moves.ofSetStatus {u v : Tab} {status : SerialBrokerStatus} (hk : Kept config u v)
    (hwrites : u.writes = t.writes)
    (hterms : u.terms = t.terms) : Moves config t (v.setStatus status) := by
  rcases setStatus_cases v status with heq | ⟨heq, -⟩ <;> rw [heq]
  · exact .ofKept hk hwrites hterms
  · exact .worked u v hterms (fun _ hw => Or.inl (hwrites ▸ hw)) hk rfl rfl rfl (List.Subset.refl _)

/-- The end of a term stays known while a request is addressed to it. -/
theorem Moves.ended (hm : Moves config t t') (hb : t.Based) (hended : t.terms.isEnded a = true)
    (haddressed : t.IsAddressed r a) :
    t'.terms.isEnded a = true ∨ t'.writes = [] := by
  cases hm with
  | idle hwrites hterms => exact Or.inl (hterms ▸ hended)
  | worked u v hstart hnew hk hwrites hterms =>
    exact Or.inl (by rw [hterms, hk.terms, hstart, hended])
  | emptied hempty => exact Or.inr hempty
  | handled input hinput hkeeps hwrites hterms =>
    refine Or.inl (hterms ▸ (handled_of hb input).isEnded_kept hb.terms (Nat.le_refl _) hended
      hinput fun g hg hterm => ?_)
    obtain ⟨w, hw, -, ha⟩ := haddressed
    have hgEnded : g.phase = .ended := by
      obtain ⟨e, he, rfl, hphase⟩ := hb.terms.isEnded_iff.mp hended
      have hmem : g ∈ t.terms.terms := OwnerTerms.givenUp_mem hg
      rwa [hb.terms.terms.eq_of_mem hmem he hterm]
    have hnone : (t.writes.all fun w => w.addressedTerm ≠ some g.term) = true := by
      simpa [keepsEnds, hg, hgEnded] using hkeeps
    have hne := List.all_eq_true.mp hnone w hw
    rw [decide_eq_true_eq] at hne
    exact hne (by rw [ha, hterm])

/-- A request that changes its address is handed to the current term. -/
theorem Moves.addressed (hm : Moves config t t') {w' : PendingWrite} (hw' : w' ∈ t'.writes) :
    (∃ w ∈ t.writes, w.requestId = w'.requestId ∧ w.addressedTerm = w'.addressedTerm) ∨
      t'.IsHanded config w' ∨
      ∀ w ∈ t.writes, w.requestId ≠ w'.requestId := by
  cases hm with
  | idle hwrites hterms => exact Or.inl ⟨w', hwrites ▸ hw', rfl, rfl⟩
  | worked u v hstart hnew hk hwrites hterms hheld hout =>
    rcases hk.addressed w' (hwrites ▸ hw') with ⟨w, hw, hid, ha⟩ | ⟨a, ha, hcurrent, hhanded⟩
    · rcases hnew w hw with hw | hfresh
      · exact Or.inl ⟨w, hw, hid, ha⟩
      · exact Or.inr (Or.inr fun w₀ hw₀ => hid ▸ hfresh w₀ hw₀)
    · refine Or.inr (Or.inl ⟨a, ha, hterms ▸ hcurrent, ?_⟩)
      rcases hhanded with ⟨payload, hsent⟩ | hserves
      · exact Or.inl ⟨payload, hout hsent⟩
      · exact Or.inr (hheld.trans hserves)
  | emptied hempty =>
    rw [hempty] at hw'
    cases hw'
  | handled input hinput hkeeps hwrites hterms => exact Or.inl ⟨w', hwrites ▸ hw', rfl, rfl⟩

/-- The step does not make the tab forget the end of a term that a pending request is addressed
to. -/
def remembersEnds (config : TabConfig) (t : Tab) : TabEvent → Bool
  | .message message => ¬ t.hears message ∨ t.keepsEnds (.message message)
  | .goOn =>
    match t.stack with
    | .takeOwn term :: _ => t.keepsEnds (.takeOwn ⟨term, config.clientId, config.maxTabs⟩)
    | _ => true
  | _ => true

theorem keepsEnds_checkAnswered {key : EntryId} {answer : CheckAnswer} :
    t.keepsEnds (.checkAnswered key answer) = true := rfl

theorem keepsEnds_watchAnswered {key : EntryId} {isEnding : Bool} :
    t.keepsEnds (.watchAnswered key isEnding) = true := rfl

/-! ### what each step does -/

theorem apply_moves (hwrites : t'.writes = t.writes) (hterms : t'.terms = t.terms)
    (hb' : t'.Based) :
    Moves config t (t'.apply config message) := by
  have hof : ∀ {v : Tab}, Kept config t' v → Moves config t v := fun hk => .ofKept hk hwrites hterms
  unfold Tab.apply
  cases hbody : message.body with
  | writeRequest requestId payload term => exact hof performWriteForPeer_kept
  | writeReady requestId term question => exact hof (approve_kept.trans send_kept)
  | writeApproval requestId term approved question => exact hof takeApproval_kept
  | writeResult requestId ok error term => exact hof (handleResult_kept hb'.writesSound)
  | dataReceived | dataSent | error => exact .idle hwrites hterms
  | status status maxTabs term =>
    dsimp only [applyStatus]
    split
    · exact .idle hwrites hterms
    · split
      · exact .idle hwrites hterms
      · split
        · exact .ofSetStatus resendUnstarted_kept hwrites hterms
        · exact .ofSetStatus (Kept.refl config t') hwrites hterms
  | statusRequest | ownerClaimed | ownerReleased => exact .idle hwrites hterms

theorem runEffect_moves (hwrites : t'.writes = t.writes) (hterms : t'.terms = t.terms)
    (hb' : t'.Based) :
    Moves config t (t'.runEffect config effect) := by
  cases effect with
  | apply message =>
    unfold Tab.runEffect
    dsimp only
    split
    · exact .idle hwrites hterms
    · exact apply_moves hwrites hterms hb'
  | check key claim => exact .idle hwrites hterms
  | watch key claim => exact .idle hwrites hterms
  | abort key => exact .idle hwrites hterms
  | ended key term wasCurrent =>
    unfold Tab.runEffect Tab.termEnded
    dsimp only
    split
    · exact .ofSetStatus handleTermEnded_kept hwrites hterms
    · exact .ofKept handleTermEnded_kept hwrites hterms

theorem withdrawEnd_writes : t.withdrawEnd.writes = [] := by
  unfold withdrawEnd
  dsimp only [push]
  rw [(setStatus_rest _ _).1, (stopElection_rest _).1]
  exact failAll_writes

theorem goOn_moves (hb : t.Based) (hremembers : t.remembersEnds config .goOn = true)
    (hstep : t.goOn config = some t') :
    Moves config t t' := by
  unfold Tab.goOn at hstep
  split at hstep
  · cases hstep
  · exact Option.some.inj hstep ▸ .idle rfl rfl
  · next hstack => exact Option.some.inj hstep ▸ runEffect_moves rfl rfl (hb.takeEffect hstack)
  · refine Option.some.inj hstep ▸ ?_
    split
    · exact .ofKept dispatchWaiting_kept rfl rfl
    · exact .idle rfl rfl
  · exact Option.some.inj hstep ▸ .idle rfl rfl
  · next term stack hstack =>
    refine Option.some.inj hstep ▸ .handled (.takeOwn ⟨term, config.clientId, config.maxTabs⟩)
      nofun ?_ rfl rfl
    rw [remembersEnds, hstack] at hremembers
    exact hremembers
  · exact Option.some.inj hstep ▸ .emptied withdrawEnd_writes

theorem PortMoves.moves (hm : PortMoves config t t') (hb : t.Based) : Moves config t t' := by
  cases hm with
  | kept hk => exact .ofKept hk rfl rfl
  | called frame hf hk =>
    exact .worked t _ rfl (fun _ => Or.inl) hk rfl rfl rfl (List.Subset.refl _)
  | reported status howner hstarting => exact .ofSetStatus broadcastStatus_kept rfl rfl
  | givenUp h hreleased hstage => exact .idle rfl rfl
  | stopped h hstack hreleased =>
    exact .emptied ((stopElection_rest _).1.trans (hb.released hreleased))

theorem release_writes : t.release.writes = [] := by
  unfold release
  dsimp only
  split <;> exact failAll_writes

theorem add_moves (hb : t.Based) {payload : Payload} : Moves config t (t.add config payload) := by
  refine .worked { t with
    writes := t.writes ++ [PendingWrite.mk t.issued.length payload none none false]
    issued := t.issued ++ [payload] } _ rfl (fun w hw => ?_) dispatch_kept rfl rfl rfl
      (List.Subset.refl _)
  refine (List.mem_append.mp hw).imp_right fun hw w₀ hw₀ => ?_
  rw [List.mem_singleton.mp hw]
  exact Nat.ne_of_lt (hb.fresh w₀ hw₀)

/-- **What any step does to the writes and the terms.** -/
theorem step_moves (hb : t.Based) {event : TabEvent}
    (hremembers : t.remembersEnds config event = true)
    (hstep : t.step config event = some t') : Moves config t t' := by
  have hturn : ∀ {f : Tab → Option Tab}, t.turn f = some t' → t.stack = [] ∧ f t = some t' :=
      fun h =>
    Option.ite_none_right_eq_some.mp h
  have hcall : ∀ {f : Tab → Tab}, t.callback f = some t' → f t = t' := fun h =>
    Option.some.inj (Option.ite_none_right_eq_some.mp h).2
  unfold Tab.step at hstep
  cases event with
  | join =>
    obtain ⟨-, hstep⟩ := hturn hstep
    split at hstep
    · cases hstep
    · exact Option.some.inj hstep ▸ .idle (startElection_rest _).1 (startElection_rest _).2
  | send payload =>
    rw [← hcall hstep]
    unfold sendPayload
    split
    · exact .idle rfl rfl
    · exact add_moves hb
  | release =>
    rw [← hcall hstep]
    split
    · exact .idle rfl rfl
    · exact .emptied release_writes
  | retry =>
    rw [← hcall hstep]
    split <;> exact .idle rfl rfl
  | goOn => exact goOn_moves hb hremembers hstep
  | writeDeadline requestId =>
    obtain ⟨-, heq⟩ := hturn hstep
    exact Option.some.inj heq ▸ .ofKept writeDeadline_kept rfl rfl
  | port event => exact (portEvent_moves hb hstep).moves hb
  | ownerGranted term =>
    obtain ⟨-, hstep⟩ := hturn hstep
    exact Option.some.inj (Option.ite_none_right_eq_some.mp hstep).2 ▸ .idle rfl rfl
  | ownerRefused =>
    obtain ⟨-, hstep⟩ := hturn hstep
    exact Option.some.inj (Option.ite_none_right_eq_some.mp hstep).2 ▸ .idle rfl rfl
  | electionRetried =>
    obtain ⟨-, hstep⟩ := hturn hstep
    exact Option.some.inj (Option.ite_none_right_eq_some.mp hstep).2 ▸
      .idle (startElection_rest t).1 (startElection_rest t).2
  | termGranted =>
    obtain ⟨-, hstep⟩ := hturn hstep
    split at hstep
    · refine Option.some.inj hstep ▸ ?_
      unfold termGranted
      split
      · exact .idle rfl rfl
      · dsimp only
        split <;> exact .idle rfl rfl
    · cases hstep
  | termRefused =>
    obtain ⟨-, hstep⟩ := hturn hstep
    split at hstep
    · exact Option.some.inj hstep ▸ .idle rfl rfl
    · cases hstep
  | electionStopped =>
    obtain ⟨-, hstep⟩ := hturn hstep
    exact Option.some.inj (Option.ite_none_right_eq_some.mp hstep).2 ▸
      .idle (stopElection_rest t).1 (stopElection_rest t).2.2.2.2.2
  | termLetGo =>
    obtain ⟨-, hstep⟩ := hturn hstep
    split at hstep
    · exact Option.some.inj hstep ▸ .idle rfl rfl
    · cases hstep
  | ownerLetGo =>
    obtain ⟨-, hstep⟩ := hturn hstep
    split at hstep
    · exact Option.some.inj hstep ▸ .idle rfl rfl
    · cases hstep
  | releaseEnded =>
    obtain ⟨-, hstep⟩ := hturn hstep
    obtain ⟨⟨hreleased, -⟩, heq⟩ := Option.ite_none_right_eq_some.mp hstep
    exact Option.some.inj heq ▸ .emptied ((setStatus_rest _ _).1.trans (hb.released hreleased))
  | message message =>
    obtain ⟨-, heq⟩ := hturn hstep
    rw [← Option.some.inj heq, handleMessage_eq]
    split
    · next hheard =>
        exact .handled (.message message) nofun
          (by simpa [remembersEnds, hheard] using hremembers) rfl rfl
    · exact .idle rfl rfl
  | checkAnswered key answer =>
    obtain ⟨-, heq⟩ := hturn hstep
    exact Option.some.inj heq ▸
      .handled (.checkAnswered key answer) nofun keepsEnds_checkAnswered rfl rfl
  | watchAnswered key isEnding =>
    obtain ⟨-, heq⟩ := hturn hstep
    exact Option.some.inj heq ▸
      .handled (.watchAnswered key isEnding) nofun keepsEnds_watchAnswered rfl rfl
  | busReconnected =>
    obtain ⟨-, heq⟩ := hturn hstep
    rw [← Option.some.inj heq]
    unfold busReconnected
    split
    · exact .idle rfl rfl
    · split
      · exact .ofKept broadcastStatus_kept rfl rfl
      · exact .idle rfl rfl

end Tab

namespace TabRun

variable {config : TabConfig} {s s' : TabRun} {e : TabEvent}

/-- What the end of a term leaves behind: the tab knows of it, and hands on what it can. -/
structure StrandsNone (s : TabRun) : Prop where
  known : ∀ p ∈ s.bereft, s.tab.terms.isEnded p.2 = true
  handedOn : s.tab.stack = [] → s.tab.CanHandOn →
    ∀ p ∈ s.bereft, ∀ w ∈ s.tab.writes, w.requestId = p.1 → w.startedTerm ≠ none

/-- Nothing that a pending request needs is forgotten in this step, nor a term taken for the current
one while a request waits. -/
def strandsNone (config : TabConfig) (s : TabRun) (e : TabEvent) : Bool :=
  s.tab.handsOver e && s.tab.remembersEnds config e

theorem mem_addressed {t : Tab} {p : RequestId × TermId} :
    p ∈ t.addressed ↔ t.IsAddressed p.1 p.2 := by
  unfold Tab.addressed Tab.IsAddressed
  rw [List.mem_filterMap]
  refine exists_congr fun w => and_congr_right fun _ => ?_
  rw [Option.map_eq_some_iff]
  constructor
  · rintro ⟨term, hterm, rfl⟩
    exact ⟨rfl, hterm⟩
  · rintro ⟨hid, hterm⟩
    exact ⟨p.2, hterm, by rw [hid]⟩

/-- What holds in every run: the tab is sound, and has not forgotten the terms its requests were
addressed to. -/
structure Kept (s : TabRun) : Prop where
  sound : s.tab.Sound
  bereft : ∀ p ∈ s.bereft, s.tab.terms.isEnded p.2 = true ∧ s.tab.IsAddressed p.1 p.2

/-- A step of a run is a step of the tab. -/
theorem step_eq (hstep : s.step config e = some s') :
    ({ s.tab with outbox := [] } : Tab).step config e = some s'.tab ∧
    s'.bereft = (s.bereft ++ s.reported e).filter fun request => request ∈ s'.tab.addressed := by
  obtain ⟨t, htab, rfl⟩ := Option.map_eq_some_iff.mp hstep
  exact ⟨htab, rfl⟩

theorem Kept.moves (hk : s.Kept) (hc : s.strandsNone config e = true)
    (hstep : s.step config e = some s') :
    Tab.Moves config { s.tab with outbox := [] } s'.tab :=
  Tab.step_moves (t := { s.tab with outbox := [] }) { hk.sound with }
    (Bool.and_eq_true_iff.mp hc).2 (step_eq hstep).1

/-- A request that the end of its term has reached is addressed to a term that has ended. -/
theorem Kept.reported (hk : s.Kept) {p : RequestId × TermId} (hp : p ∈ s.reported e) :
    s.tab.terms.isEnded p.2 = true ∧ s.tab.IsAddressed p.1 p.2 := by
  unfold TabRun.reported at hp
  split at hp
  · split at hp
    · next hstack =>
      obtain ⟨hin, hterm⟩ := List.mem_filter.mp hp
      have haddressed := mem_addressed.mp hin
      refine ⟨?_, haddressed⟩
      rw [of_decide_eq_true hterm]
      rcases hk.sound.ended _ (hstack ▸ List.mem_cons_self) _ _ _ List.mem_cons_self with
        hended | hdisposed
      · exact hended
      · obtain ⟨w, hw, -⟩ := haddressed
        rw [(hk.sound.disposed hdisposed).1] at hw
        cases hw
    · cases hp
  · cases hp

theorem Kept.step (hk : s.Kept) (hc : s.strandsNone config e = true)
    (hstep : s.step config e = some s') : s'.Kept := by
  obtain ⟨htab, hbereft⟩ := step_eq hstep
  have hsound : ({ s.tab with outbox := [] } : Tab).Sound := { hk.sound with }
  refine ⟨hsound.step (Bool.and_eq_true_iff.mp hc).1 htab, fun p hp => ?_⟩
  rw [hbereft] at hp
  obtain ⟨hp, hstill⟩ := List.mem_filter.mp hp
  have hstill := mem_addressed.mp (of_decide_eq_true hstill)
  refine ⟨?_, hstill⟩
  obtain ⟨hended, haddressed⟩ : s.tab.terms.isEnded p.2 = true ∧ s.tab.IsAddressed p.1 p.2 := by
    rcases List.mem_append.mp hp with hp | hp
    · exact hk.bereft p hp
    · exact hk.reported hp
  rcases (hk.moves hc hstep).ended hsound.toBased hended haddressed with hended' | hempty
  · exact hended'
  · obtain ⟨w, hw, -⟩ := hstill
    rw [hempty] at hw
    cases hw

theorem Kept.strandsNone (hk : s.Kept) : s.StrandsNone where
  known p hp := (hk.bereft p hp).1
  handedOn hstack hcan p hp w hw hid hnone := by
    obtain ⟨hended, w', hw', hid', haddressed⟩ := hk.bereft p hp
    obtain rfl := KeyedList.Distinct.eq_of_mem hk.sound.ids hw' hw (hid'.trans hid.symm)
    exact hk.sound.settled.not_stuck hstack hcan ⟨hended, w', hw', hid', haddressed, hnone⟩

/-- A request that leaves the term it was addressed to, and is still pending, has been handed to the
current one. -/
theorem Kept.isHanded (hk : s.Kept) (hc : s.strandsNone config e = true)
    (hstep : s.step config e = some s')
    {p : RequestId × TermId} (hp : p ∈ s.bereft) (hleft : p ∉ s'.bereft) {w : PendingWrite}
    (hw : w ∈ s'.tab.writes)
    (hid : w.requestId = p.1) : s'.tab.IsHanded config w := by
  obtain ⟨htab, hbereft⟩ := step_eq hstep
  obtain ⟨-, w₀, hw₀, hid₀, haddressed₀⟩ := hk.bereft p hp
  rcases (hk.moves hc hstep).addressed hw with ⟨w₁, hw₁, hid₁, haddressed₁⟩ | hhanded | hnew
  · obtain rfl : w₀ = w₁ :=
      KeyedList.Distinct.eq_of_mem hk.sound.ids hw₀ hw₁ (by rw [hid₀, hid₁, hid])
    refine absurd ?_ hleft
    rw [hbereft]
    refine List.mem_filter.mpr ⟨List.mem_append_left _ hp,
      decide_eq_true (mem_addressed.mpr ⟨w, hw, hid, ?_⟩)⟩
    rw [← haddressed₁, haddressed₀]
  · exact hhanded
  · exact absurd (hid₀.trans hid.symm) (hnew w₀ hw₀)

/-- **In every run that forgets no end a request waits on, every request whose term has ended is
handed to the current term at the end of the first turn with a current term and a connection, and
the tab knows of the end until then.** -/
theorem ended_strands_none (config : TabConfig) (es : List TabEvent) (s : TabRun)
    (halways : (tabRuns config).Always (fun s e => s.strandsNone config e = true) es)
    (hrun : (tabRuns config).run es = some s) :
    s.StrandsNone ∧ ∀ e s', s.strandsNone config e = true → s.step config e = some s' →
    ∀ p ∈ s.bereft, p ∉ s'.bereft →
      ∀ w ∈ s'.tab.writes, w.requestId = p.1 → s'.tab.IsHanded config w := by
  have hk : s.Kept :=
      TransitionSystem.run_invariant (T := tabRuns config) (P := Kept)
      ⟨Tab.init_sound, by simp [tabRuns]⟩
    (fun s e s' hk hc hstep => hk.step hc hstep) halways hrun
  exact ⟨hk.strandsNone, fun e s' hc hstep p hp hleft w hw hid =>
    hk.isHanded hc hstep hp hleft hw hid⟩

/-! ### a run on either side -/

/-- The term of another tab is checked, opens the port, and ends while a request is addressed to
it. -/
def bereaved : List TabEvent :=
  [.join, .message ⟨1, .all, .ownerClaimed 1 .infinity⟩, .goOn, .goOn, .checkAnswered 0 .held,
    .goOn, .goOn, .goOn,
    .message ⟨1, .all, .status .open .infinity 1⟩, .goOn, .goOn, .goOn, .send [7],
    .watchAnswered 0 false,
    .goOn, .goOn, .goOn, .goOn]

/-- Claims of terms that nobody has. -/
def invented (terms : Nat) : List TabEvent :=
  (List.range terms).flatMap fun i =>
    [.message ⟨2, .all, .ownerClaimed (10 + i) .infinity⟩, .goOn, .goOn]

/-- The claim of the next holder. -/
def claimed : TabEvent := .message ⟨3, .all, .ownerClaimed 2 .infinity⟩

/-- The lock of the next holder is found held, and its port is open. -/
def succeeded (key : EntryId) : List TabEvent :=
  [.checkAnswered key .held, .goOn, .goOn, .goOn, .message ⟨3, .all, .status .open .infinity 2⟩,
    .goOn, .goOn, .goOn]

def anyTab : TabConfig :=
  { maxTabs := .infinity, autoReconnect := true, maxWriteChunkBytes := 4, clientId := 0 }

theorem ended_strands_none_fourteenInvented :
    ∃ s, (tabRuns anyTab).run
    (bereaved ++ invented 14 ++ [claimed, .goOn, .goOn] ++ succeeded 18) = some s ∧
    s.StrandsNone := by
  obtain ⟨s, hrun⟩ := Option.isSome_iff_exists.mp
    (show ((tabRuns anyTab).run (bereaved ++ invented 14 ++ [claimed, .goOn, .goOn] ++
      succeeded 18)).isSome = true by decide +kernel)
  refine ⟨s, hrun, (ended_strands_none anyTab _ s
    (TransitionSystem.always_of_alwaysFrom (TabRun.strandsNone anyTab) ?_) hrun).1⟩
  decide +kernel

/-- With one claim more the tab forgets the term that has ended, and the request stays with it. -/
theorem not_ended_strands_none : ¬ ∀ (config : TabConfig) (es : List TabEvent) (s : TabRun),
    (tabRuns config).run es = some s → s.StrandsNone := by
  intro hall
  have hstuck : ((tabRuns anyTab).run (bereaved ++ invented 15 ++ [claimed, .goOn, .goOn, .goOn] ++
      succeeded 19)).any (fun s => s.tab.stack = [] ∧
      s.tab.status = .open ∧ s.tab.terms.current = some 2 ∧ (0, 1) ∈ s.bereft ∧
        s.tab.writes = [⟨0, [7], none, some 1, true⟩]) = true := by
    decide +kernel
  obtain ⟨s, hrun, hs⟩ := (Option.any_eq_true _ _).mp hstuck
  obtain ⟨hstack, hopen, hcurrent, hbereft, hwrites⟩ := of_decide_eq_true hs
  exact (hall anyTab _ s hrun).handedOn hstack ⟨hopen, by rw [hcurrent]; exact nofun⟩ (0, 1) hbereft
      ⟨0, [7], none, some 1, true⟩
    (by rw [hwrites]; exact List.mem_singleton_self _) rfl rfl

end TabRun

end SerialBroker
