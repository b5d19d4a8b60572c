import SerialBroker.Client.OwnerTermsSteps

/-!
# Everything one input can do to the terms

`Handled` lists, for each input, what it can do to well-formed terms and what it does outside. Every
invariant of the terms is read off from it: that they stay well formed, what can be applied, and in
which phase an entry can be after an input given the one it was in before.
-/

namespace SerialBroker

/-- A message from the tab that issued a write, or one that asks for a status. -/
def MessageBody.isOfIssuer : MessageBody → Bool
  | .writeRequest .. | .writeApproval .. | .statusRequest _ => true
  | _ => false

/-- An answer to a write, whether or not it names a term. -/
def MessageBody.isAnswer : MessageBody → Bool
  | .writeReady .. | .writeResult .. => true
  | _ => false

/-- The term an answer to a write speaks for. -/
def MessageBody.answerTerm? : MessageBody → Option TermId
  | .writeReady _ term _ => some term
  | .writeResult _ _ _ term => term
  | _ => none

namespace ProtocolMessage

variable {message : ProtocolMessage}

/-! ### a message is of one kind -/

theorem kinds_of_claim {claim : TermClaim} (h : message.claim? = some claim) :
    message.body.isAboutDevice = false ∧ message.body.isAnswer = false := by
  cases hbody : message.body <;> simp_all [claim?, MessageBody.isAboutDevice, MessageBody.isAnswer]

theorem kinds_of_device (h : message.body.isAboutDevice = true) :
    message.claim? = none ∧ message.body.isAnswer = false := by
  cases hbody : message.body <;> simp_all [claim?, MessageBody.isAboutDevice, MessageBody.isAnswer]

theorem kinds_of_answer {term : TermId} (h : message.body.answerTerm? = some term) :
    message.claim? = none ∧ message.body.isAboutDevice = false := by
  cases hbody : message.body
    <;> simp_all [claim?, MessageBody.isAboutDevice, MessageBody.answerTerm?]

theorem kinds_of_issuer (h : message.body.isOfIssuer = true) :
    message.claim? = none ∧ message.body.isAboutDevice = false ∧ message.body.isAnswer = false := by
  cases hbody : message.body <;>
    simp_all [claim?, MessageBody.isAboutDevice, MessageBody.isAnswer, MessageBody.isOfIssuer]

end ProtocolMessage

namespace OwnerTerms

variable {s s' : OwnerTerms} {next id key : EntryId} {entry : KnownTerm} {claim : TermClaim}
  {message : ProtocolMessage} {term : TermId} {input : TermInput} {effects : List TermEffect}

/-- What the terms have to know for a message to be applied. -/
inductive Believes (s : OwnerTerms) (message : ProtocolMessage) : Prop
  | claim (entry : KnownTerm) (he : entry ∈ s.terms) (hclaim : message.claim? = some entry.claim)
      (hlive : entry.phase = .live) (hfirst : entry.isSucceeded = false)
      (hcur : s.current = some entry.term)
  | device (entry : KnownTerm) (he : entry ∈ s.terms) (hdevice : message.body.isAboutDevice = true)
      (hsender : entry.claim.sender = message.sender) (hlive : entry.phase = .live)
  | answer (entry : KnownTerm) (he : entry ∈ s.terms)
      (hanswer : message.body.answerTerm? = some entry.term)
      (hsender : entry.claim.sender = message.sender) (hphase : entry.phase ≠ .refused)
  | issuer (hissuer : message.body.isOfIssuer = true)

/-- The entry a first message of a term makes, while the term's lock is being checked. -/
def checkedEntry (id : EntryId) (claim : TermClaim) (message : ProtocolMessage) : KnownTerm :=
  { newEntry id claim .checking false with waiting := [.observe claim message] }

/-- The entry with one more closure waiting. -/
def keep (run : Waiting) (e : KnownTerm) : KnownTerm := { e with waiting := e.waiting ++ [run] }

/-- The entry once its lock was found free. -/
def refuse (e : KnownTerm) : KnownTerm := { e with phase := .refused, waiting := [] }

/-- The entry once its watch was granted while a goodbye was queued on its lock. -/
def letGo (e : KnownTerm) : KnownTerm := { e with isEnding := true }

/-- What an input does to well-formed terms; a new entry gets the identity `id`. -/
inductive Handled (s : OwnerTerms) (id : EntryId) : TermInput → OwnerTerms → List TermEffect → Prop
  | ignored (input : TermInput) : Handled s id input s []
  | applied (message : ProtocolMessage) (hb : s.Believes message) :
      Handled s id (.message message) s [.apply message]
  | asked (message : ProtocolMessage) (claim : TermClaim) (hclaim : message.claim? = some claim)
      (hnew : s.get? claim.term = none) (hdisposed : s.isDisposed = false) :
      Handled s id (.message message) (s.remember (checkedEntry id claim message)).1
        ((s.remember (checkedEntry id claim message)).2 ++ [.check id claim])
  | kept (message : ProtocolMessage) (entry : KnownTerm) (run : Waiting) (he : entry ∈ s.terms)
      (hc : entry.phase = .checking) (habout : run.IsAbout entry.claim) (hof : run.IsOf message)
      (hroom : entry.waiting.length < maxTermFlood) :
      Handled s id (.message message) (s.modify entry.key (keep run)) []
  | heard (message : ProtocolMessage) (entry : KnownTerm)
      (hbody : message.body = .ownerReleased entry.term)
      (hsender : message.sender = entry.claim.sender) (he : entry ∈ s.terms)
      (hlive : entry.phase = .live)
      (hown : entry.isOwn = false) (hending : entry.isEnding = false) :
      Handled s id (.message message) (s.modify entry.key (hear true)) []
  | goodbye (message : ProtocolMessage) (entry : KnownTerm)
      (hbody : message.body = .ownerReleased entry.term)
      (hsender : message.sender = entry.claim.sender) (he : entry ∈ s.terms)
      (hlive : entry.phase = .live)
      (hown : entry.isOwn = false) (hending : entry.isEnding = true) :
      Handled s id (.message message) ((s.modify entry.key (hear true)).endTerm (hear true entry)).1
        [.abort entry.key, .ended entry.key entry.term (s.current = some entry.term)]
  | unknown (entry : KnownTerm) (he : entry ∈ s.terms) (hc : entry.phase = .checking) :
      Handled s id (.checkAnswered entry.key .unknown) (s.forget entry).1 [.abort entry.key]
  | free (entry : KnownTerm) (he : entry ∈ s.terms) (hc : entry.phase = .checking) :
      Handled s id (.checkAnswered entry.key .free) (s.modify entry.key refuse) []
  | held (entry : KnownTerm) (he : entry ∈ s.terms) (hc : entry.phase = .checking) :
      Handled s id (.checkAnswered entry.key .held) (s.believed entry)
        (.watch entry.key entry.claim :: entry.waiting.flatMap Waiting.applied)
  | ending (entry : KnownTerm) (he : entry ∈ s.terms) (hlive : entry.phase = .live)
      (hnot : entry.hasHeardGoodbye = false) :
      Handled s id (.watchAnswered entry.key true) (s.modify entry.key letGo) []
  | watched (entry : KnownTerm) (isEnding : Bool) (he : entry ∈ s.terms)
      (hlive : entry.phase = .live)
      (hheard : isEnding = true → entry.hasHeardGoodbye = true) :
      Handled s id (.watchAnswered entry.key isEnding) (s.endTerm entry).1
        [.abort entry.key, .ended entry.key entry.term (s.current = some entry.term)]
  | took (claim : TermClaim) :
      Handled s id (.takeOwn claim)
      ((s.remember (newEntry id claim .live true)).1.makeCurrent (newEntry id claim .live true))
        (s.remember (newEntry id claim .live true)).2
  | endedOwn (entry : KnownTerm) (he : entry ∈ s.terms) (hphase : entry.phase ≠ .ended) :
      Handled s id (.endOwn entry.term) (s.endTerm entry).1
        [.abort entry.key, .ended entry.key entry.term (s.current = some entry.term)]
  | disposed : Handled s id .dispose ⟨[], none, true⟩ (s.terms.map fun entry => .abort entry.key)

/-! ### each method does one of these -/

theorem waitFor_handled (he : entry ∈ s.terms) (hc : entry.phase = .checking) {run : Waiting}
    (habout : run.IsAbout entry.claim) (hof : run.IsOf message) :
    Handled s id (.message message) (s.waitFor entry run) [] := by
  unfold waitFor
  split
  · exact .ignored _
  · next hroom => exact .kept message entry run he hc habout hof (Nat.lt_of_not_le hroom)

theorem observe_handled (h : s.WellFormed next) (hclaim : message.claim? = some claim) :
    Handled s id (.message message) (s.observe id claim message).1
    (s.observe id claim message).2 := by
  unfold observe
  split
  · exact .ignored _
  · next hdisposed =>
    cases hget : s.get? claim.term with
    | none => exact .asked message claim hclaim hget (by simpa using hdisposed)
    | some entry =>
      obtain ⟨he, hterm⟩ := mem_of_get? hget
      simp only
      split
      · exact .ignored _
      · next hsame =>
        simp only [not_or, not_not] at hsame
        obtain ⟨hrefused, hended, rfl⟩ := hsame
        split
        · next hc => exact waitFor_handled he hc ⟨rfl, hclaim⟩ rfl
        · next hc =>
          have hlive : entry.phase = .live := by
            cases hphase : entry.phase <;> simp_all
          split
          · exact .ignored _
          · next hfirst =>
            have hfirst : entry.isSucceeded = false := by simpa using hfirst
            have hcur : s.current = some entry.term := by
              rcases h.led entry he hlive with hcur | hsucceeded
              · exact hcur
              · rw [hfirst] at hsucceeded
                cases hsucceeded
            rw [makeCurrent_of_current hcur]
            exact .applied message (.claim entry he hclaim hlive hfirst hcur)

theorem heardReleased_handled (hbody : message.body = .ownerReleased term) :
    Handled s id (.message message) (s.heardReleased term message.sender).1
    (s.heardReleased term message.sender).2 := by
  unfold heardReleased
  cases hget : s.get? term with
  | none => exact .ignored _
  | some entry =>
    obtain ⟨he, rfl⟩ := mem_of_get? hget
    simp only
    split
    · exact .ignored _
    · next hsender =>
      have hsender : message.sender = entry.claim.sender := (not_not.mp hsender).symm
      split
      · next hc => exact waitFor_handled he hc ⟨rfl, hsender⟩ ⟨hbody, rfl⟩
      · split
        · exact .ignored _
        · next hother =>
          simp only [ne_eq, not_or, not_not, Bool.not_eq_true] at hother
          obtain ⟨hlive, hown⟩ := hother
          rw [modify_hear_true]
          split
          · next hending =>
            have hphase : entry.phase ≠ .ended := by rw [hlive]; exact nofun
            have hgoodbye : Handled s id _ _ _ :=
              .goodbye message entry hbody hsender he hlive hown hending
            rw [endTerm_eq hphase]
            rw [endTerm_eq (show (hear true entry).phase ≠ .ended from hphase)] at hgoodbye
            exact hgoodbye
          · next hending =>
              exact .heard message entry hbody hsender he hlive hown (by simpa using hending)

/-- What `authorize` makes of data and errors. -/
def authorizeDevice (s : OwnerTerms) (message : ProtocolMessage) : OwnerTerms × List TermEffect :=
  if s.speaksForLiveTerm message.sender then (s, [.apply message])
  else match s.checkedTermOf message.sender with
    | some checking => (s.waitFor checking (.authorize message), [])
    | none => (s, [])

theorem authorize_handled (h : s.WellFormed next) :
    Handled s id (.message message) (s.authorize id message).1 (s.authorize id message).2 := by
  have hanswer : ∀ term, message.body.answerTerm? = some term →
      Handled s id (.message message)
        (if s.isFrom term message.sender then (s, [TermEffect.apply message]) else (s, [])).1
        (if s.isFrom term message.sender then (s, [TermEffect.apply message]) else (s, [])).2 := by
    intro term hterm
    split
    · next hfrom =>
      unfold isFrom at hfrom
      cases hget : s.get? term with
      | none => simp [hget] at hfrom
      | some entry =>
        simp only [hget, decide_eq_true_eq] at hfrom
        obtain ⟨he, rfl⟩ := mem_of_get? hget
        exact .applied message (.answer entry he hterm hfrom.2 hfrom.1)
    · exact .ignored _
  have hdevice : message.body.isAboutDevice = true →
      Handled s id (.message message) (s.authorizeDevice message).1 (s.authorizeDevice
        message).2 := by
    intro hbody
    unfold authorizeDevice
    split
    · next hspeaks =>
      obtain ⟨entry, he, hentry⟩ := List.any_eq_true.mp hspeaks
      simp only [decide_eq_true_eq] at hentry
      exact .applied message (.device entry he hbody hentry.1 hentry.2)
    · cases hchecked : s.checkedTermOf message.sender with
      | none => exact .ignored _
      | some entry =>
        have hentry := List.find?_some hchecked
        simp only [decide_eq_true_eq] at hentry
        exact waitFor_handled (List.mem_of_find?_eq_some hchecked) hentry.2
          ⟨hbody, hentry.1.symm⟩ rfl
  unfold authorize
  split
  · exact .ignored _
  · have hissuer : message.body.isOfIssuer = true →
        Handled s id (.message message) s [.apply message] :=
      fun hissuer => .applied message (.issuer hissuer)
    cases hbody : message.body with
    | ownerClaimed term maxTabs => exact observe_handled h (by simp [ProtocolMessage.claim?, hbody])
    | status status maxTabs term =>
      exact observe_handled h (by simp [ProtocolMessage.claim?, hbody])
    | ownerReleased term => exact heardReleased_handled hbody
    | writeReady requestId term question =>
      exact hanswer term (by simp [hbody, MessageBody.answerTerm?])
    | writeResult requestId ok error term =>
      cases term with
      | none => exact .ignored _
      | some term => exact hanswer term (by simp [hbody, MessageBody.answerTerm?])
    | dataReceived payload text => exact hdevice (by simp [hbody, MessageBody.isAboutDevice])
    | dataSent payload originClientId => exact hdevice (by simp [hbody, MessageBody.isAboutDevice])
    | error error => exact hdevice (by simp [hbody, MessageBody.isAboutDevice])
    | writeRequest requestId payload term => exact hissuer (by simp [hbody, MessageBody.isOfIssuer])
    | writeApproval requestId term approved question =>
      exact hissuer (by simp [hbody, MessageBody.isOfIssuer])
    | statusRequest retry => exact hissuer (by simp [hbody, MessageBody.isOfIssuer])

theorem endTerm_effects (hphase : entry.phase ≠ .ended) :
    (s.endTerm entry).2 = [.abort entry.key,
      .ended entry.key entry.term (s.current = some entry.term)] := by
  rw [endTerm_eq hphase]

theorem checkAnswered_handled (h : s.WellFormed next) {answer : CheckAnswer} :
    Handled s id (.checkAnswered key answer) (s.checkAnswered id key answer).1
    (s.checkAnswered id key answer).2 := by
  cases hentry : s.entryOf? key with
  | none =>
    rw [checkAnswered, hentry]
    exact .ignored _
  | some entry =>
    obtain ⟨he, rfl⟩ := mem_of_entryOf? hentry
    by_cases hc : entry.phase = .checking
    · cases answer with
      | unknown =>
        simp only [checkAnswered, hentry, hc, ne_eq, not_true_eq_false, if_false]
        exact .unknown entry he hc
      | free =>
        simp only [checkAnswered, hentry, hc, ne_eq, not_true_eq_false, if_false]
        exact .free entry he hc
      | held =>
        rw [checkAnswered_held h he hc]
        exact .held entry he hc
    · simp only [checkAnswered, hentry, ne_eq, hc, not_false_eq_true, if_true]
      exact .ignored _

theorem watchAnswered_handled {isEnding : Bool} :
    Handled s id (.watchAnswered key isEnding) (s.watchAnswered key isEnding).1
    (s.watchAnswered key isEnding).2 := by
  unfold watchAnswered
  cases hentry : s.entryOf? key with
  | none => exact .ignored _
  | some entry =>
    obtain ⟨he, rfl⟩ := mem_of_entryOf? hentry
    simp only
    split
    · exact .ignored _
    · next hphase =>
      have hlive : entry.phase = .live := not_not.mp hphase
      split
      · next hending =>
        obtain ⟨rfl, hnot⟩ := hending
        exact .ending entry he hlive (by simpa using hnot)
      · next hending =>
        rw [endTerm_effects (by rw [hlive]; exact nofun)]
        exact .watched entry isEnding he hlive fun htrue => by simpa [htrue] using hending

theorem endOwn_handled : Handled s id (.endOwn term) (s.endOwn term).1 (s.endOwn term).2 := by
  unfold endOwn
  cases hget : s.get? term with
  | none => exact .ignored _
  | some entry =>
    obtain ⟨he, rfl⟩ := mem_of_get? hget
    by_cases hphase : entry.phase = .ended
    · simp only [endTerm, hphase, if_true]
      exact .ignored _
    · simp only [endTerm_effects hphase]
      exact .endedOwn entry he hphase

/-- **Every input is handled in one of the listed ways.** -/
theorem handle_handled (h : s.WellFormed next) :
    Handled s id input (s.handle id input).1 (s.handle id input).2 := by
  cases input with
  | message message => exact authorize_handled h
  | checkAnswered key answer => exact checkAnswered_handled h
  | watchAnswered key isEnding => exact watchAnswered_handled
  | takeOwn claim => exact .took claim
  | endOwn term => exact endOwn_handled
  | dispose => exact .disposed

/-! ### what is there afterwards -/

theorem mem_believed (h : s.WellFormed next) (he : entry ∈ s.terms) (hc : entry.phase = .checking)
    {e' : KnownTerm} :
    e' ∈ (s.believed entry).terms ↔ e' = hear (entry.waiting.any Waiting.isGoodbye)
    (OwnerTerms.held entry) ∨
      ∃ e ∈ s.terms, e.key ≠ entry.key ∧ e' = succeededBy s.current entry.term e := by
  have hheld := h.toConsistent.heldEntry he hc
  have hmem : OwnerTerms.held entry ∈ (s.modify entry.key OwnerTerms.held).terms :=
    (h.mem_modify he).mpr (Or.inl rfl)
  have hmem' : OwnerTerms.held entry ∈
      ((s.modify entry.key OwnerTerms.held).makeCurrent (OwnerTerms.held entry)).terms :=
    mem_makeCurrent.mpr ⟨_, hmem, succeededBy_self rfl⟩
  have hmade := hheld.makeCurrent hmem rfl ((h.entries entry he).checking hc).2.1
  refine (hmade.mem_modify hmem').trans (or_congr_right ?_)
  constructor
  · rintro ⟨he', hk⟩
    obtain ⟨e, hin, rfl⟩ := mem_makeCurrent.mp he'
    rw [succeededBy_key] at hk
    rcases (h.mem_modify he).mp hin with rfl | ⟨hin, -⟩
    · exact absurd rfl hk
    · exact ⟨e, hin, hk, rfl⟩
  · rintro ⟨e, hin, hk, rfl⟩
    refine ⟨mem_makeCurrent.mpr ⟨e, (h.mem_modify he).mpr (Or.inr ⟨hin, hk⟩), rfl⟩, ?_⟩
    rw [succeededBy_key]
    exact hk

theorem newEntry_wellFormed : (newEntry id claim .live true).WellFormed :=
  ⟨nofun, fun _ => rfl, nofun, by simp [newEntry]⟩

theorem checkedEntry_wellFormed (hclaim : message.claim? = some claim) :
    (checkedEntry id claim message).WellFormed where
  checking _ := ⟨rfl, rfl, rfl, rfl⟩
  waiting h := absurd rfl h
  observes _ := ⟨message, [], rfl⟩
  about run hrun := by
    obtain rfl : run = .observe claim message := by simpa [checkedEntry] using hrun
    exact ⟨rfl, hclaim⟩

/-- What a live term's goodbye leaves, before the term ends. -/
theorem WellFormed.heard (h : s.WellFormed next) (he : entry ∈ s.terms)
    (hlive : entry.phase = .live) :
    (s.modify entry.key (hear true)).WellFormed next ∧ hear true entry ∈
      (s.modify entry.key (hear true)).terms ∧
      (hear true entry).phase ≠ .ended := by
  have hwf := h.entries entry he
  have hphase : ∀ {phase}, phase ≠ .live → (hear true entry).phase ≠ phase :=
    fun hne heq => hne (heq.symm.trans hlive)
  refine ⟨h.modify he rfl rfl rfl rfl ⟨fun hc => ?_, hwf.waiting, hwf.observes, hwf.about⟩,
    (h.mem_modify he).mpr (Or.inl rfl),
    hphase (by decide)⟩
  exact absurd hc (hphase (by decide))

/-- **Well-formed terms stay well formed.** -/
theorem Handled.wellFormed (h : s.WellFormed next) (hid : next ≤ id)
    (hh : Handled s id input s' effects) :
    s'.WellFormed (id + 1) := by
  have hlater : ∀ {t : OwnerTerms}, t.WellFormed next → t.WellFormed (id + 1) :=
    fun ht => { ht with toConsistent := ht.toConsistent.mono (Nat.le_succ_of_le hid) }
  have hforget : ∀ {entry : KnownTerm}, s.current ≠ some entry.term →
      (s.forget entry).1.WellFormed next :=
    fun hcur =>
      { toConsistent := h.toConsistent.forget hcur
        size := Nat.le_trans (List.length_filter_le _ _) h.size
        led := fun e he hlive => h.led e (mem_forget.mp he).1 hlive }
  cases hh with
  | ignored => exact hlater h
  | applied => exact hlater h
  | asked message claim hclaim hnew hdisposed =>
    have hnone := get?_eq_none.mp hnew
    obtain ⟨hcons, hsize, hshrunk⟩ := h.toConsistent.remember (checkedEntry id claim message) hid
      (checkedEntry_wellFormed hclaim)
      (fun hcur => by
        obtain ⟨e, he, hterm, -⟩ := h.current _ hcur
        exact absurd hterm (hnone e he))
      (fun hd => by simp [hdisposed] at hd)
    refine ⟨hcons, hsize, fun e he hlive => ?_⟩
    rw [hshrunk.current]
    rcases mem_remember_of_shrunk h.toConsistent hshrunk he with rfl | ⟨he, -⟩
    · cases hlive
    · exact h.led e he hlive
  | kept message entry run he hc habout hof hroom =>
    have hwf := h.entries entry he
    refine hlater (h.modify he rfl rfl rfl rfl ⟨hwf.checking, fun hne => absurd hc hne, fun _ => ?_,
      fun r hr => ?_⟩)
    · obtain ⟨m, ws, hws⟩ := hwf.observes hc
      exact ⟨m, ws ++ [run], by simp [keep, hws]⟩
    · rcases List.mem_append.mp hr with hr | hr
      · exact hwf.about r hr
      · rw [List.mem_singleton.mp hr]
        exact habout
  | heard message entry hbody hsender he hlive hown hending => exact hlater (h.heard he hlive).1
  | goodbye message entry hbody hsender he hlive hown hending =>
    obtain ⟨hheard, hmem, hphase⟩ := h.heard he hlive
    exact hlater (hheard.endTerm hmem hphase)
  | unknown entry he hc => exact hlater (hforget (h.not_current he (by rw [hc]; exact nofun)))
  | free entry he hc =>
    have hnot := h.not_current he (by rw [hc]; exact nofun)
    refine hlater ⟨h.toConsistent.modify he rfl rfl ⟨nofun,
        fun _ => rfl, nofun, by simp [refuse]⟩ nofun
      fun hcur => absurd hcur hnot, le_of_eq_of_le modify_length h.size, fun e' he' hlive => ?_⟩
    rcases (h.mem_modify he).mp he' with rfl | ⟨he', -⟩
    · cases hlive
    · exact h.led e' he' hlive
  | held entry he hc => exact hlater (h.believed he hc)
  | ending entry he hlive hnot =>
    have hwf := h.entries entry he
    exact hlater (h.modify he rfl rfl rfl rfl
      ⟨fun hc => absurd (hlive.symm.trans hc) nofun, hwf.waiting, hwf.observes, hwf.about⟩)
  | watched entry isEnding he hlive hheard =>
    exact hlater (h.endTerm he (by rw [hlive]; exact nofun))
  | took claim =>
    obtain ⟨hcons, hsize, hshrunk⟩ := h.toConsistent.remember (newEntry id claim .live true) hid
      newEntry_wellFormed (fun _ => ⟨rfl, rfl⟩) (fun _ => nofun)
    have hself := h.toConsistent.mem_remember_self (newEntry id claim .live true) h.size rfl
    refine ⟨hcons.makeCurrent hself rfl rfl, ?_, makeCurrent_led fun e he hlive => ?_⟩
    · rw [makeCurrent_terms, List.length_map]
      exact hsize
    · rw [hshrunk.current]
      rcases mem_remember_of_shrunk h.toConsistent hshrunk he with rfl | ⟨he, -⟩
      · exact Or.inl rfl
      · exact Or.inr (h.led e he hlive)
  | endedOwn entry he hphase => exact hlater (h.endTerm he hphase)
  | disposed =>
    exact ⟨⟨List.nodup_nil, List.nodup_nil, by simp, by simp, by simp, by simp⟩,
      Nat.zero_le _, by simp [Led]⟩

/-- The phase an input can put an entry into. -/
inductive PhaseStep (input : TermInput) (e : KnownTerm) : TermPhase → Prop
  | held (hc : e.phase = .checking) (hinput : input = .checkAnswered e.key .held) :
      PhaseStep input e .live
  | free (hc : e.phase = .checking) (hinput : input = .checkAnswered e.key .free) :
      PhaseStep input e .refused
  | goodbye (message : ProtocolMessage) (hlive : e.phase = .live) (hown : e.isOwn = false)
      (hending : e.isEnding = true)
      (hinput : input = .message message) (hbody : message.body = .ownerReleased e.term)
      (hsender : message.sender = e.claim.sender) : PhaseStep input e .ended
  | watched (isEnding : Bool) (hlive : e.phase = .live)
      (hinput : input = .watchAnswered e.key isEnding)
      (hheard : isEnding = true → e.hasHeardGoodbye = true) : PhaseStep input e .ended
  | endedOwn (hphase : e.phase ≠ .ended) (hinput : input = .endOwn e.term) :
      PhaseStep input e .ended

/-- What an input can make of an entry that stays. -/
structure Evolves (input : TermInput) (e e' : KnownTerm) : Prop where
  key : e'.key = e.key
  claim : e'.claim = e.claim
  isOwn : e'.isOwn = e.isOwn
  phase : e'.phase = e.phase ∨ PhaseStep input e e'.phase
  succeeded : e.isSucceeded = true → e'.isSucceeded = true
  ending : e'.isEnding = true → e.isEnding = true ∨ (input = .watchAnswered e.key true ∧
    e.phase = .live)
  heard : e'.hasHeardGoodbye = true → e.hasHeardGoodbye = true ∨
    (∃ message, input = .message message ∧ message.body = .ownerReleased e.term ∧
      message.sender = e.claim.sender) ∨
    (input = .checkAnswered e.key .held ∧ e.waiting.any Waiting.isGoodbye = true)
  waiting : ∀ run ∈ e'.waiting, run ∈ e.waiting ∨ ∃ message, input = .message message ∧
    run.IsOf message

theorem Evolves.refl (e : KnownTerm) : Evolves input e e :=
  ⟨rfl, rfl, rfl, Or.inl rfl, fun h => h, Or.inl, Or.inl, fun _ => Or.inl⟩

theorem Evolves.succeededBy {previous : Option TermId} (e : KnownTerm) :
    Evolves input e (succeededBy previous term e) := by
  unfold OwnerTerms.succeededBy
  split
  · exact ⟨rfl, rfl, rfl, Or.inl rfl, fun _ => rfl, Or.inl, Or.inl, fun _ => Or.inl⟩
  · exact .refl e

theorem Evolves.finished {e : KnownTerm} (hphase : PhaseStep input e .ended) :
    Evolves input e (finished e) :=
  ⟨rfl, rfl, rfl, Or.inr hphase, fun h => h, Or.inl, Or.inl, fun _ hrun =>
    absurd hrun List.not_mem_nil⟩

theorem Evolves.held {e : KnownTerm} (hc : e.phase = .checking) :
    Evolves (.checkAnswered e.key .held) e (hear (e.waiting.any Waiting.isGoodbye) (held e)) where
  key := rfl
  claim := rfl
  isOwn := rfl
  phase := Or.inr (.held hc rfl)
  succeeded h := h
  ending := Or.inl
  heard h := by
    rcases Bool.or_eq_true_iff.mp h with h | h
    · exact Or.inl h
    · exact Or.inr (Or.inr ⟨rfl, h⟩)
  waiting _ hrun := absurd hrun List.not_mem_nil

theorem Evolves.goodbye {e : KnownTerm} (hlive : e.phase = .live) (hown : e.isOwn = false)
    (hending : e.isEnding = true)
    (hbody : message.body = .ownerReleased e.term) (hsender : message.sender = e.claim.sender) :
    Evolves (.message message) e (OwnerTerms.finished (hear true e)) where
  key := rfl
  claim := rfl
  isOwn := rfl
  phase := Or.inr (.goodbye message hlive hown hending rfl hbody hsender)
  succeeded h := h
  ending := Or.inl
  heard _ := Or.inr (Or.inl ⟨message, rfl, hbody, hsender⟩)
  waiting _ hrun := absurd hrun List.not_mem_nil

/-- The entries an input brings. -/
inductive Brought (id : EntryId) : TermInput → KnownTerm → Prop
  | asked (message : ProtocolMessage) (claim : TermClaim) (hclaim : message.claim? = some claim) :
      Brought id (.message message) (checkedEntry id claim message)
  | took (claim : TermClaim) : Brought id (.takeOwn claim) (newEntry id claim .live true)

theorem mem_endTerm (h : s.Consistent next) (he : entry ∈ s.terms) (hphase : entry.phase ≠ .ended)
    {e' : KnownTerm} :
    e' ∈ (s.endTerm entry).1.terms ↔ e' = finished entry ∨ (e' ∈ s.terms ∧ e'.key ≠ entry.key) := by
  rw [endTerm_eq hphase]
  exact h.mem_modify he

/-- **An entry there after an input is one from before, in a phase the input allows, or a new
one.** -/
theorem Handled.entries (h : s.WellFormed next) (hh : Handled s id input s' effects)
    {e' : KnownTerm}
    (he' : e' ∈ s'.terms) : (∃ e ∈ s.terms, Evolves input e e') ∨ Brought id input e' := by
  have hstay : e' ∈ s.terms → (∃ e ∈ s.terms, Evolves input e e') ∨ Brought id input e' :=
    fun hmem => Or.inl ⟨e', hmem, .refl e'⟩
  cases hh with
  | ignored => exact hstay he'
  | applied => exact hstay he'
  | asked message claim hclaim hnew hdisposed =>
    rcases mem_of_mem_remember he' with rfl | hmem
    · exact Or.inr (.asked message claim hclaim)
    · exact hstay hmem
  | kept message entry run he hc habout hof hroom =>
    rcases (h.mem_modify he).mp he' with rfl | ⟨hmem, -⟩
    · refine Or.inl ⟨entry, he, rfl, rfl, rfl, Or.inl rfl, fun h => h, Or.inl, Or.inl,
        fun r hr => ?_⟩
      rcases List.mem_append.mp hr with hr | hr
      · exact Or.inl hr
      · rw [List.mem_singleton.mp hr]
        exact Or.inr ⟨message, rfl, hof⟩
    · exact hstay hmem
  | heard message entry hbody hsender he hlive hown hending =>
    rcases (h.mem_modify he).mp he' with rfl | ⟨hmem, -⟩
    · exact Or.inl ⟨entry, he, rfl, rfl, rfl, Or.inl rfl, fun h => h, Or.inl,
        fun _ => Or.inr (Or.inl ⟨message, rfl, hbody, hsender⟩), fun _ => Or.inl⟩
    · exact hstay hmem
  | goodbye message entry hbody hsender he hlive hown hending =>
    obtain ⟨hheard, hmem, hphase⟩ := h.heard he hlive
    rcases (mem_endTerm hheard.toConsistent hmem hphase).mp he' with rfl | ⟨hin, hk⟩
    · exact Or.inl ⟨entry, he, .goodbye hlive hown hending hbody hsender⟩
    · rcases (h.mem_modify he).mp hin with rfl | ⟨hin, -⟩
      · exact absurd rfl hk
      · exact hstay hin
  | unknown entry he hc => exact hstay (mem_forget.mp he').1
  | free entry he hc =>
    rcases (h.mem_modify he).mp he' with rfl | ⟨hmem, -⟩
    · exact Or.inl ⟨entry, he, rfl, rfl, rfl, Or.inr (.free hc rfl), fun h => h, Or.inl, Or.inl,
        fun _ hrun => absurd hrun List.not_mem_nil⟩
    · exact hstay hmem
  | held entry he hc =>
    rcases (mem_believed h he hc).mp he' with rfl | ⟨e, hmem, -, rfl⟩
    · exact Or.inl ⟨entry, he, .held hc⟩
    · exact Or.inl ⟨e, hmem, .succeededBy e⟩
  | ending entry he hlive hnot =>
    rcases (h.mem_modify he).mp he' with rfl | ⟨hmem, -⟩
    · exact Or.inl ⟨entry, he, rfl, rfl, rfl, Or.inl rfl, fun h => h,
        fun _ => Or.inr ⟨rfl, hlive⟩, Or.inl, fun _ => Or.inl⟩
    · exact hstay hmem
  | watched entry isEnding he hlive hheard =>
    rcases (mem_endTerm h.toConsistent he (by rw [hlive]; exact nofun)).mp he' with rfl | ⟨hmem, -⟩
    · exact Or.inl ⟨entry, he, .finished (.watched isEnding hlive rfl hheard)⟩
    · exact hstay hmem
  | took claim =>
    obtain ⟨e, hmem, rfl⟩ := mem_makeCurrent.mp he'
    rcases mem_of_mem_remember hmem with rfl | hmem
    · rw [succeededBy_self rfl]
      exact Or.inr (.took claim)
    · exact Or.inl ⟨e, hmem, .succeededBy e⟩
  | endedOwn entry he hphase =>
    rcases (mem_endTerm h.toConsistent he hphase).mp he' with rfl | ⟨hmem, -⟩
    · exact Or.inl ⟨entry, he, .finished (.endedOwn hphase rfl)⟩
    · exact hstay hmem
  | disposed => cases he'

/-! ### what was done outside -/

theorem shrink_effects {rounds : Nat} {effect : TermEffect} (h : effect ∈ (s.shrink rounds).2) :
    ∃ k, effect = .abort k := by
  induction rounds generalizing s with
  | zero => cases h
  | succ rounds ih =>
    unfold shrink at h
    split at h
    · cases h
    · split at h
      · cases h
      · rcases List.mem_append.mp h with h | h
        · exact ⟨_, List.mem_singleton.mp h⟩
        · exact ih h

theorem shrink_unchanged {rounds : Nat} :
    (s.shrink rounds).1.current = s.current ∧ (s.shrink rounds).1.isDisposed = s.isDisposed := by
  induction rounds generalizing s with
  | zero => exact ⟨rfl, rfl⟩
  | succ rounds ih =>
    unfold shrink
    split
    · exact ⟨rfl, rfl⟩
    · split
      · exact ⟨rfl, rfl⟩
      · exact ih

theorem remember_current : (s.remember entry).1.current = s.current := shrink_unchanged.1

theorem Handled.isDisposed (hh : Handled s id input s' effects) (hinput : input ≠ .dispose) :
    s'.isDisposed = s.isDisposed := by
  have hend : ∀ (t : OwnerTerms) (e : KnownTerm), (t.endTerm e).1.isDisposed = t.isDisposed := by
    intro t e
    unfold endTerm
    split <;> rfl
  cases hh with
  | ignored | applied | kept | heard | unknown | free | ending => rfl
  | asked => exact shrink_unchanged.2
  | goodbye => exact hend _ _
  | watched => exact hend _ _
  | endedOwn => exact hend _ _
  | held entry => exact makeCurrent_isDisposed
  | took claim => exact makeCurrent_isDisposed.trans shrink_unchanged.2
  | disposed => exact absurd rfl hinput

/-- Why something was done outside; `s'` are the terms after the input. -/
inductive EffectOf (s s' : OwnerTerms) (id : EntryId) (input : TermInput) : TermEffect → Prop
  | apply (message : ProtocolMessage) (hb : s'.Believes message) :
      EffectOf s s' id input (.apply message)
  | check (message : ProtocolMessage) (claim : TermClaim) (hinput : input = .message message)
      (hclaim : message.claim? = some claim) : EffectOf s s' id input (.check id claim)
  | watch (e : KnownTerm) (he : e ∈ s.terms) (hc : e.phase = .checking)
      (hinput : input = .checkAnswered e.key .held) :
      EffectOf s s' id input (.watch e.key e.claim)
  | abort (key : EntryId) : EffectOf s s' id input (.abort key)
  | ended (e e' : KnownTerm) (wasCurrent : Bool) (he : e ∈ s.terms) (he' : e' ∈ s'.terms)
      (hphase : e.phase ≠ .ended)
      (hphase' : e'.phase = .ended) (hevolves : Evolves input e e') :
      EffectOf s s' id input (.ended e.key e.term wasCurrent)

theorem ended_effects (h : s.Consistent next) (he : entry ∈ s.terms) (hphase : entry.phase ≠ .ended)
    (hstep : PhaseStep input entry .ended) {effect : TermEffect}
    (heffect : effect ∈
      [TermEffect.abort entry.key, .ended entry.key entry.term (s.current = some entry.term)]) :
    EffectOf s (s.endTerm entry).1 id input effect := by
  rcases List.mem_cons.mp heffect with rfl | heffect
  · exact .abort _
  · rw [List.mem_singleton.mp heffect]
    exact .ended entry (finished entry) _ he ((mem_endTerm h he hphase).mpr (Or.inl rfl)) hphase rfl
      (.finished hstep)

theorem believed_applies (h : s.WellFormed next) (he : entry ∈ s.terms)
    (hc : entry.phase = .checking)
    (happly : .apply message ∈ entry.waiting.flatMap Waiting.applied) :
    (s.believed entry).Believes message := by
  have hmem : hear (entry.waiting.any Waiting.isGoodbye) (OwnerTerms.held entry) ∈
      (s.believed entry).terms :=
    (mem_believed h he hc).mpr (Or.inl rfl)
  obtain ⟨run, hrun, happlied⟩ := List.mem_flatMap.mp happly
  have habout := (h.entries entry he).about run hrun
  cases run with
  | observe claim m =>
    obtain rfl : message = m := by simpa [Waiting.applied] using happlied
    exact .claim _ hmem habout.2 rfl ((h.entries entry he).checking hc).2.1 makeCurrent_current
  | authorize m =>
    obtain rfl : message = m := by simpa [Waiting.applied] using happlied
    exact .device _ hmem habout.1 habout.2.symm rfl
  | heardReleased => simp [Waiting.applied] at happlied

/-- **Whatever an input does outside has its reason in the terms.** -/
theorem Handled.effectOf (h : s.WellFormed next) (hh : Handled s id input s' effects)
    {effect : TermEffect}
    (heffect : effect ∈ effects) : EffectOf s s' id input effect := by
  cases hh with
  | ignored | kept | heard | free | ending => cases heffect
  | applied message hb =>
    rw [List.mem_singleton.mp heffect]
    exact .apply message hb
  | asked message claim hclaim hnew hdisposed =>
    rcases List.mem_append.mp heffect with heffect | heffect
    · obtain ⟨key, rfl⟩ := shrink_effects heffect
      exact .abort key
    · rw [List.mem_singleton.mp heffect]
      exact .check message claim rfl hclaim
  | goodbye message entry hbody hsender he hlive hown hending =>
    obtain ⟨hheard, hmem, hphase⟩ := h.heard he hlive
    rcases List.mem_cons.mp heffect with rfl | heffect
    · exact .abort _
    · rw [List.mem_singleton.mp heffect]
      exact .ended entry _ _ he ((mem_endTerm hheard.toConsistent hmem hphase).mpr (Or.inl rfl))
          hphase rfl
        (.goodbye hlive hown hending hbody hsender)
  | unknown entry he hc =>
    rw [List.mem_singleton.mp heffect]
    exact .abort _
  | held entry he hc =>
    rcases List.mem_cons.mp heffect with rfl | heffect
    · exact .watch entry he hc rfl
    · obtain ⟨run, hrun, happlied⟩ := List.mem_flatMap.mp heffect
      obtain ⟨message, rfl⟩ : ∃ message, effect = .apply message := by
        cases run with
        | observe _ m | authorize m => exact ⟨m, by simpa [Waiting.applied] using happlied⟩
        | heardReleased => simp [Waiting.applied] at happlied
      exact .apply message (believed_applies h he hc heffect)
  | watched entry isEnding he hlive hheard =>
    exact ended_effects h.toConsistent he (by rw [hlive]; decide)
      (.watched isEnding hlive rfl hheard) heffect
  | took claim =>
    obtain ⟨key, rfl⟩ := shrink_effects heffect
    exact .abort key
  | endedOwn entry he hphase =>
    exact ended_effects h.toConsistent he hphase (.endedOwn hphase rfl) heffect
  | disposed =>
    obtain ⟨entry, -, rfl⟩ := List.mem_map.mp heffect
    exact .abort _

end OwnerTerms

end SerialBroker
