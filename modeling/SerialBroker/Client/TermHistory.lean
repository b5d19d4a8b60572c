import SerialBroker.Client.OwnerTermsHandled
import SerialBroker.Lib.TransitionSystem

/-!
# Nothing is believed without the lock

The terms of one tab together with the lock requests they have outstanding and a record of what the
lock manager answered. An event is a message, whoever sent it, an answer of the lock manager to a
request that is outstanding, or a step of the tab's own session; messages and answers come in any
order. What the terms believe is then a matter of record: a claim is applied only if its lock was
found held or taken by the tab itself, and a term of another tab ends only if this tab's watch was
granted.
-/

namespace SerialBroker

/-- A lock request of the terms: the entry that made it, and the claim its lock is named after. -/
abbrev TermRequest := EntryId × TermClaim

namespace TermEffect

def check? : TermEffect → Option TermRequest
  | .check key claim => some (key, claim)
  | _ => none

def watch? : TermEffect → Option TermRequest
  | .watch key claim => some (key, claim)
  | _ => none

def ended? : TermEffect → Option EntryId
  | .ended key _ _ => some key
  | _ => none

end TermEffect

/-- The terms of a tab and what happened to them; an input's number is the identity of an entry it
creates. -/
structure TermHistory where
  terms : OwnerTerms
  inputs : Nat
  /-- Checks, watches in the queue, and watches whose grant is held while the locks are listed. -/
  checks : List TermRequest
  watches : List TermRequest
  grants : List TermRequest
  /-- The record: claims the tab took itself, claims found held, watches granted, entries `onEnded`
  was called for. -/
  own : List TermClaim
  foundHeld : List TermClaim
  watchGranted : List TermRequest
  ended : List EntryId
  /-- What the last input did outside. -/
  effects : List TermEffect
  deriving DecidableEq

inductive TermEvent
  | message (message : ProtocolMessage)
  | checkAnswered (check : TermRequest) (answer : CheckAnswer)
  | watchGranted (watch : TermRequest)
  | watchRefused (watch : TermRequest)
  | watchAnswered (watch : TermRequest) (isEnding : Bool)
  | takeOwn (claim : TermClaim)
  | endOwn (term : TermId)
  | dispose
  deriving DecidableEq

namespace TermHistory

def init : TermHistory := ⟨.empty, 0, [], [], [], [], [], [], [], []⟩

/-- Hands an input to the terms and makes the requests they ask for. -/
def perform (h : TermHistory) (input : TermInput) : TermHistory :=
  let handled := h.terms.handle h.inputs input
  { h with
    terms := handled.1
    inputs := h.inputs + 1
    checks := h.checks ++ handled.2.filterMap TermEffect.check?
    watches := (h.watches ++ handled.2.filterMap TermEffect.watch?).filter fun watch =>
      .abort watch.1 ∉ handled.2
    ended := h.ended ++ handled.2.filterMap TermEffect.ended?
    effects := handled.2 }

def step (h : TermHistory) : TermEvent → Option TermHistory
  | .message message => some (h.perform (.message message))
  | .checkAnswered check answer =>
    if check ∈ h.checks then
      some ({ h with
        checks := h.checks.erase check
        foundHeld := if answer = CheckAnswer.held then check.2 :: h.foundHeld
          else h.foundHeld }.perform (.checkAnswered check.1 answer))
    else none
  | .watchGranted watch =>
    if watch ∈ h.watches then
      some { h with
        watches := h.watches.erase watch
        grants := watch :: h.grants
        watchGranted := watch :: h.watchGranted
        effects := [] }
    else none
  | .watchRefused watch =>
    if watch ∈ h.watches then
      some { h with watches := h.watches.erase watch, effects := [] }
    else none
  | .watchAnswered watch isEnding =>
    if watch ∈ h.grants then
      some ({ h with grants := h.grants.erase watch }.perform (.watchAnswered watch.1 isEnding))
    else none
  | .takeOwn claim => some ({ h with own := claim :: h.own }.perform (.takeOwn claim))
  | .endOwn term =>
    if term ∈ h.own.map TermClaim.term then some (h.perform (.endOwn term)) else none
  | .dispose => some (h.perform .dispose)

end TermHistory

/-- The histories of one tab's terms, under any messages and any answers. -/
def termHistories : TransitionSystem TermHistory TermEvent := ⟨.init, TermHistory.step⟩

namespace TermHistory

/-- The tab took the claim's term itself, or found the claim's lock held. -/
def Vouched (h : TermHistory) (claim : TermClaim) : Prop := claim ∈ h.own ∨ claim ∈ h.foundHeld

/-- The term is the tab's own, or the watch of this entry on the term's lock was granted. -/
def MayBeOver (h : TermHistory) (entry : KnownTerm) : Prop :=
  entry.term ∈ h.own.map TermClaim.term ∨ (entry.key, entry.claim) ∈ h.watchGranted

/-- What ties the terms to the record. -/
structure Inv (h : TermHistory) : Prop where
  wellFormed : h.terms.WellFormed h.inputs
  checks : ∀ check ∈ h.checks, check.1 < h.inputs ∧ ∀ e ∈ h.terms.terms, e.key = check.1 →
    e.claim = check.2
  watches : ∀ watch ∈ h.watches, watch.1 < h.inputs ∧ ∀ e ∈ h.terms.terms, e.key = watch.1 →
    e.claim = watch.2
  grants : ∀ watch ∈ h.grants, watch ∈ h.watchGranted ∧ watch.1 < h.inputs ∧
    ∀ e ∈ h.terms.terms, e.key = watch.1 → e.claim = watch.2
  vouched : ∀ e ∈ h.terms.terms, e.phase = .live → h.Vouched e.claim
  ending : ∀ e ∈ h.terms.terms, e.isEnding = true → (e.key, e.claim) ∈ h.watchGranted
  finished : ∀ e ∈ h.terms.terms, e.phase = .ended → h.MayBeOver e
  ended : ∀ key ∈ h.ended, key < h.inputs ∧ ∀ e ∈ h.terms.terms, e.key = key → e.phase = .ended
  once : h.ended.Nodup
  believes : ∀ message, .apply message ∈ h.effects → h.terms.Believes message

/-! ### one input -/

variable {h h' : TermHistory} {input : TermInput} {event : TermEvent}

theorem init_inv : init.Inv where
  wellFormed := OwnerTerms.empty_wellFormed
  checks := by simp [init]
  watches := by simp [init]
  grants := by simp [init]
  vouched := by simp [init, OwnerTerms.empty]
  ending := by simp [init, OwnerTerms.empty]
  finished := by simp [init, OwnerTerms.empty]
  ended := by simp [init]
  once := List.nodup_nil
  believes := by simp [init]

theorem perform_handled (hi : h.Inv) :
    OwnerTerms.Handled h.terms h.inputs input (h.perform input).terms (h.perform input).effects :=
  OwnerTerms.handle_handled hi.wellFormed

/-- What the lock manager and the session owe the terms before an input. -/
structure Grounded (h : TermHistory) (input : TermInput) : Prop where
  held : ∀ key, input = .checkAnswered key .held → ∀ e ∈ h.terms.terms, e.key = key →
    h.Vouched e.claim
  own : ∀ claim, input = .takeOwn claim → claim ∈ h.own
  watch : ∀ key isEnding, input = .watchAnswered key isEnding →
    ∀ e ∈ h.terms.terms, e.key = key → (e.key, e.claim) ∈ h.watchGranted
  endOwn : ∀ term, input = .endOwn term → term ∈ h.own.map TermClaim.term

theorem mem_filterMap_check {effects : List TermEffect} {check : TermRequest} :
    check ∈ effects.filterMap TermEffect.check? ↔ .check check.1 check.2 ∈ effects := by
  rw [List.mem_filterMap]
  constructor
  · rintro ⟨effect, heffect, hcheck⟩
    cases effect <;> simp_all [TermEffect.check?]
    rw [← hcheck]
    exact heffect
  · exact fun heffect => ⟨_, heffect, rfl⟩

theorem mem_filterMap_watch {effects : List TermEffect} {watch : TermRequest} :
    watch ∈ effects.filterMap TermEffect.watch? ↔ .watch watch.1 watch.2 ∈ effects := by
  rw [List.mem_filterMap]
  constructor
  · rintro ⟨effect, heffect, hwatch⟩
    cases effect <;> simp_all [TermEffect.watch?]
    rw [← hwatch]
    exact heffect
  · exact fun heffect => ⟨_, heffect, rfl⟩

/-- An entry that an input brings, as opposed to one that evolved, has the input's number. -/
theorem entry_of_old (hi : h.Inv) {e' : KnownTerm} (he' : e' ∈ (h.perform input).terms.terms)
    (hold : e'.key < h.inputs) :
    ∃ e ∈ h.terms.terms, OwnerTerms.Evolves input e e' := by
  rcases (perform_handled hi).entries hi.wellFormed he' with hevolved | hbrought
  · exact hevolved
  · cases hbrought <;> exact absurd hold (Nat.lt_irrefl _)

/-- Requests of entries stay requests for the claims of these entries. -/
theorem request_perform (hi : h.Inv) {request : TermRequest}
    (hr : request.1 < h.inputs ∧ ∀ e ∈ h.terms.terms, e.key = request.1 → e.claim = request.2) :
    request.1 < (h.perform input).inputs ∧
      ∀ e ∈ (h.perform input).terms.terms, e.key = request.1 → e.claim = request.2 := by
  refine ⟨Nat.lt_succ_of_lt hr.1, fun e' he' hk => ?_⟩
  obtain ⟨e, he, hevolves⟩ := entry_of_old hi he' (hk ▸ hr.1)
  rw [hevolves.claim]
  exact hr.2 e he (hevolves.key.symm.trans hk)

theorem perform_vouched (hi : h.Inv) (hg : h.Grounded input) :
    ∀ e ∈ (h.perform input).terms.terms, e.phase = .live → h.Vouched e.claim := by
  intro e' he' hlive'
  rcases (perform_handled hi).entries hi.wellFormed he' with ⟨e, he, hevolves⟩ | hbrought
  · rw [hevolves.claim]
    rcases hevolves.phase with hphase | hstep
    · exact hi.vouched e he (hphase.symm.trans hlive')
    · rw [hlive'] at hstep
      cases hstep with
      | held hc hinput => exact hg.held e.key hinput e he rfl
  · cases hbrought with
    | asked => cases hlive'
    | took claim => exact Or.inl (hg.own claim rfl)

theorem perform_ending (hi : h.Inv) (hg : h.Grounded input) :
    ∀ e ∈ (h.perform input).terms.terms, e.isEnding = true → (e.key, e.claim) ∈ h.watchGranted := by
  intro e' he' hending'
  rcases (perform_handled hi).entries hi.wellFormed he' with ⟨e, he, hevolves⟩ | hbrought
  · rw [hevolves.claim, hevolves.key]
    rcases hevolves.ending hending' with hending | ⟨hinput, -⟩
    · exact hi.ending e he hending
    · exact hg.watch e.key true hinput e he rfl
  · cases hbrought <;> cases hending'

theorem perform_over (hi : h.Inv) (hg : h.Grounded input) :
    ∀ e ∈ (h.perform input).terms.terms, e.phase = .ended → h.MayBeOver e := by
  intro e' he' hended'
  rcases (perform_handled hi).entries hi.wellFormed he' with ⟨e, he, hevolves⟩ | hbrought
  · have hover : h.MayBeOver e := by
      rcases hevolves.phase with hphase | hstep
      · exact hi.finished e he (hphase.symm.trans hended')
      · rw [hended'] at hstep
        cases hstep with
        | goodbye _ _ _ hending => exact Or.inr (hi.ending e he hending)
        | watched isEnding _ hinput => exact Or.inr (hg.watch e.key isEnding hinput e he rfl)
        | endedOwn _ hinput => exact Or.inl (hg.endOwn e.term hinput)
    unfold MayBeOver KnownTerm.term at hover ⊢
    rwa [hevolves.claim, hevolves.key]
  · cases hbrought <;> cases hended'

/-- What `onEnded` is called for was not over before, and is over now. -/
theorem ended_effect (hi : h.Inv) {key : EntryId}
    (hkey : key ∈ (h.perform input).effects.filterMap TermEffect.ended?) :
    ∃ e ∈ h.terms.terms, ∃ e' ∈ (h.perform input).terms.terms,
      e.key = key ∧ e'.key = key ∧ e.phase ≠ .ended ∧ e'.phase = .ended := by
  obtain ⟨effect, heffect, hended⟩ := List.mem_filterMap.mp hkey
  cases (perform_handled hi).effectOf hi.wellFormed heffect with
  | ended e e' wasCurrent he he' hphase hphase' hevolves =>
    obtain rfl : e.key = key := Option.some.inj hended
    exact ⟨e, he, e', he', rfl, hevolves.key, hphase, hphase'⟩
  | apply | check | watch | abort => cases hended

/-- At most one entry ends in an input. -/
theorem handled_ended {s s' : OwnerTerms} {id : EntryId} {effects : List TermEffect}
    (hh : OwnerTerms.Handled s id input s' effects) :
    (effects.filterMap TermEffect.ended?).Nodup := by
  have happlied : ∀ runs : List Waiting, (runs.flatMap
      Waiting.applied).filterMap TermEffect.ended? = [] := by
    intro runs
    refine List.filterMap_eq_nil_iff.mpr fun effect heffect => ?_
    obtain ⟨run, -, happlied⟩ := List.mem_flatMap.mp heffect
    cases run <;> simp [Waiting.applied] at happlied <;> rw [happlied] <;> rfl
  have hshrink : ∀ entry : KnownTerm, (s.remember entry).2.filterMap TermEffect.ended? = [] := by
    intro entry
    refine List.filterMap_eq_nil_iff.mpr fun effect heffect => ?_
    obtain ⟨key, rfl⟩ := OwnerTerms.shrink_effects heffect
    rfl
  cases hh with
  | ignored | kept | heard | free | ending | applied | unknown | goodbye | watched | endedOwn =>
    simp [List.filterMap_cons, TermEffect.ended?]
  | asked => simp [List.filterMap_append, List.filterMap_cons, hshrink, TermEffect.ended?]
  | held entry => simp [List.filterMap_cons, happlied, TermEffect.ended?]
  | took => simp [hshrink]
  | disposed =>
    rw [List.filterMap_eq_nil_iff.mpr fun effect heffect => ?_]
    · exact List.nodup_nil
    · obtain ⟨entry, -, rfl⟩ := List.mem_map.mp heffect
      rfl

theorem perform_once (hi : h.Inv) : (h.perform input).ended.Nodup := by
  refine List.Nodup.append hi.once (handled_ended (perform_handled hi)) fun key hold hnew => ?_
  · obtain ⟨e, he, -, -, rfl, -, hphase, -⟩ := ended_effect hi hnew
    exact hphase ((hi.ended e.key hold).2 e he rfl)

/-- An entry that is over stays over. -/
theorem perform_stays_over (hi : h.Inv) {e e' : KnownTerm} (he : e ∈ h.terms.terms)
    (he' : e' ∈ (h.perform input).terms.terms) (hk : e'.key = e.key) (hended : e.phase = .ended) :
    e'.phase = .ended := by
  obtain ⟨o, ho, hevolves⟩ := entry_of_old hi he' (hk ▸ hi.wellFormed.fresh e he)
  obtain rfl := hi.wellFormed.keys.eq_of_mem ho he (hevolves.key.symm.trans hk)
  rcases hevolves.phase with hphase | hstep
  · exact hphase.trans hended
  · generalize e'.phase = phase' at hstep
    cases hstep <;> simp_all

theorem perform_ended (hi : h.Inv) : ∀ key ∈ (h.perform input).ended, key <
      (h.perform input).inputs ∧
    ∀ e ∈ (h.perform input).terms.terms, e.key = key → e.phase = .ended := by
  intro key hkey
  rcases List.mem_append.mp hkey with hkey | hkey
  · obtain ⟨hlt, hended⟩ := hi.ended key hkey
    refine ⟨Nat.lt_succ_of_lt hlt, fun e' he' hk => ?_⟩
    obtain ⟨e, he, hevolves⟩ := entry_of_old hi he' (hk ▸ hlt)
    exact perform_stays_over hi he he' hevolves.key (hended e he (hevolves.key.symm.trans hk))
  · obtain ⟨e, he, e', he', rfl, hk', -, hphase'⟩ := ended_effect hi hkey
    refine ⟨Nat.lt_succ_of_lt (hi.wellFormed.fresh e he), fun o ho hk => ?_⟩
    have hwf : (h.perform input).terms.WellFormed (h.inputs + 1) :=
      (perform_handled hi).wellFormed hi.wellFormed (Nat.le_refl _)
    rw [hwf.keys.eq_of_mem ho he' (hk.trans hk'.symm)]
    exact hphase'

/-- **An input the lock manager and the session stand behind keeps the record true.** -/
theorem perform_inv (hi : h.Inv) (hg : h.Grounded input) : (h.perform input).Inv where
  wellFormed := (perform_handled hi).wellFormed hi.wellFormed (Nat.le_refl _)
  checks check hcheck := by
    rcases List.mem_append.mp hcheck with hcheck | hcheck
    · exact request_perform hi (hi.checks check hcheck)
    · have heffect := mem_filterMap_check.mp hcheck
      obtain ⟨key, claim⟩ := check
      cases (perform_handled hi).effectOf hi.wellFormed heffect with
      | check message _ hinput hclaim =>
        subst hinput
        refine ⟨Nat.lt_succ_self _, fun e he hk => ?_⟩
        rcases (perform_handled hi).entries hi.wellFormed he with ⟨o, ho, hevolves⟩ | hbrought
        · exact absurd (hi.wellFormed.fresh o ho)
            (by rw [← hevolves.key, hk]; exact Nat.lt_irrefl _)
        · cases hbrought with
          | asked _ claim' hclaim' => exact Option.some.inj (hclaim'.symm.trans hclaim)
  watches watch hwatch := by
    rcases List.mem_append.mp (List.mem_filter.mp hwatch).1 with hwatch | hwatch
    · exact request_perform hi (hi.watches watch hwatch)
    · have heffect := mem_filterMap_watch.mp hwatch
      obtain ⟨key, claim⟩ := watch
      cases (perform_handled hi).effectOf hi.wellFormed heffect with
      | watch e he hc hinput =>
        refine ⟨Nat.lt_succ_of_lt (hi.wellFormed.fresh e he), fun e' he' hk => ?_⟩
        obtain ⟨o, ho, hevolves⟩ := entry_of_old hi he' (hk ▸ hi.wellFormed.fresh e he)
        rw [hevolves.claim, hi.wellFormed.keys.eq_of_mem ho he (hevolves.key.symm.trans hk)]
  grants watch hwatch := ⟨(hi.grants watch hwatch).1, request_perform hi (hi.grants watch hwatch).2⟩
  vouched := perform_vouched hi hg
  ending := perform_ending hi hg
  finished := perform_over hi hg
  ended := perform_ended hi
  once := perform_once hi
  believes message happly := by
    cases (perform_handled hi).effectOf hi.wellFormed happly with
    | apply _ hb => exact hb

/-! ### every event -/

theorem step_inv (hi : h.Inv) (hstep : h.step event = some h') : h'.Inv := by
  cases event with
  | message message =>
    cases hstep
    exact perform_inv hi ⟨nofun, nofun, nofun, nofun⟩
  | checkAnswered check answer =>
    simp only [step, Option.ite_none_right_eq_some, Option.some.injEq] at hstep
    obtain ⟨hcheck, rfl⟩ := hstep
    have hclaim := (hi.checks check hcheck).2
    have hi' : Inv { h with
        checks := h.checks.erase check
        foundHeld := if answer = CheckAnswer.held then check.2 :: h.foundHeld else h.foundHeld } :=
      { hi with
        checks := fun c hc => hi.checks c (List.mem_of_mem_erase hc)
        vouched := fun e he hlive => (hi.vouched e he hlive).imp_right fun hfound => by
          dsimp only
          split
          · exact List.mem_cons_of_mem _ hfound
          · exact hfound }
    refine perform_inv hi' ⟨fun key hinput e he hk => ?_, nofun, nofun, nofun⟩
    obtain ⟨rfl, rfl⟩ : check.1 = key ∧ answer = .held := by simpa using hinput
    rw [hclaim e he hk]
    exact Or.inr List.mem_cons_self
  | watchGranted watch =>
    simp only [step, Option.ite_none_right_eq_some, Option.some.injEq] at hstep
    obtain ⟨hwatch, rfl⟩ := hstep
    exact { hi with
      watches := fun w hw => hi.watches w (List.mem_of_mem_erase hw)
      grants := fun w hw => by
        rcases List.mem_cons.mp hw with rfl | hw
        · exact ⟨List.mem_cons_self, hi.watches w hwatch⟩
        · exact ⟨List.mem_cons_of_mem _ (hi.grants w hw).1, (hi.grants w hw).2⟩
      ending := fun e he hending => List.mem_cons_of_mem _ (hi.ending e he hending)
      finished := fun e he hended => (hi.finished e he hended).imp_right (List.mem_cons_of_mem _)
      believes := fun _ happly => absurd happly List.not_mem_nil }
  | watchRefused watch =>
    simp only [step, Option.ite_none_right_eq_some, Option.some.injEq] at hstep
    obtain ⟨-, rfl⟩ := hstep
    exact { hi with
      watches := fun w hw => hi.watches w (List.mem_of_mem_erase hw)
      believes := fun _ happly => absurd happly List.not_mem_nil }
  | watchAnswered watch isEnding =>
    simp only [step, Option.ite_none_right_eq_some, Option.some.injEq] at hstep
    obtain ⟨hwatch, rfl⟩ := hstep
    obtain ⟨hgranted, -, hclaim⟩ := hi.grants watch hwatch
    have hi' : Inv { h with grants := h.grants.erase watch } :=
      { hi with grants := fun w hw => hi.grants w (List.mem_of_mem_erase hw) }
    refine perform_inv hi' ⟨nofun, nofun, fun key b hinput e he hk => ?_, nofun⟩
    obtain ⟨rfl, -⟩ : watch.1 = key ∧ isEnding = b := by simpa using hinput
    rw [hk, hclaim e he hk]
    exact hgranted
  | takeOwn claim =>
    cases hstep
    have hi' : Inv { h with own := claim :: h.own } :=
      { hi with
        vouched := fun e he hlive => (hi.vouched e he hlive).imp_left (List.mem_cons_of_mem _)
        finished := fun e he hended => (hi.finished e he hended).imp_left (List.mem_cons_of_mem _) }
    refine perform_inv hi' ⟨nofun, fun claim' hinput => ?_, nofun, nofun⟩
    obtain rfl : claim = claim' := TermInput.takeOwn.inj hinput
    exact List.mem_cons_self
  | endOwn term =>
    simp only [step, Option.ite_none_right_eq_some, Option.some.injEq] at hstep
    obtain ⟨hown, rfl⟩ := hstep
    refine perform_inv hi ⟨nofun, nofun, nofun, fun term' hinput => ?_⟩
    obtain rfl : term = term' := TermInput.endOwn.inj hinput
    exact hown
  | dispose =>
    cases hstep
    exact perform_inv hi ⟨nofun, nofun, nofun, nofun⟩

theorem run_inv {events : List TermEvent} (hrun : termHistories.run events = some h) : h.Inv :=
  TransitionSystem.run_invariant_all (T := termHistories) init_inv (fun _ _ _ hi hstep =>
    step_inv hi hstep) hrun

/-! ### what is applied -/

/-- What vouches for a message when it is applied: which of its kinds it is decides whether that is
the lock of the claim, a live term of its sender, or the record of its sender. -/
structure Sound (h : TermHistory) (message : ProtocolMessage) : Prop where
  claim : ∀ claim, message.claim? = some claim → h.Vouched claim ∧
    ∃ e ∈ h.terms.terms, e.claim = claim ∧ e.phase = .live ∧ e.isSucceeded = false
  device : message.body.isAboutDevice = true →
    ∃ e ∈ h.terms.terms, e.claim.sender = message.sender ∧ e.phase = .live
  answer : message.body.isAnswer = true →
    ∃ e ∈ h.terms.terms, message.body.answerTerm? = some e.term ∧ e.claim.sender = message.sender ∧
      e.phase ≠ .refused

theorem sound_of_believes (hi : h.Inv) {message : ProtocolMessage} (hb : h.terms.Believes message) :
    h.Sound message := by
  cases hb with
  | claim entry he hclaim hlive hfirst hcur =>
    obtain ⟨hdevice, hanswer⟩ := ProtocolMessage.kinds_of_claim hclaim
    refine ⟨fun claim hc => ?_, fun hd => absurd (hdevice.symm.trans hd) nofun, fun ha =>
      absurd (hanswer.symm.trans ha) nofun⟩
    obtain rfl : entry.claim = claim := Option.some.inj (hclaim.symm.trans hc)
    exact ⟨hi.vouched entry he hlive, entry, he, rfl, hlive, hfirst⟩
  | device entry he hdevice hsender hlive =>
    obtain ⟨hclaim, hanswer⟩ := ProtocolMessage.kinds_of_device hdevice
    exact ⟨fun _ hc => absurd (hclaim.symm.trans hc) nofun, fun _ => ⟨entry, he, hsender, hlive⟩,
      fun ha => absurd (hanswer.symm.trans ha) nofun⟩
  | answer entry he hanswer hsender hphase =>
    obtain ⟨hclaim, hdevice⟩ := ProtocolMessage.kinds_of_answer hanswer
    exact ⟨fun _ hc => absurd (hclaim.symm.trans hc) nofun, fun hd =>
      absurd (hdevice.symm.trans hd) nofun,
      fun _ => ⟨entry, he, hanswer, hsender, hphase⟩⟩
  | issuer hissuer =>
    obtain ⟨hclaim, hdevice, hanswer⟩ := ProtocolMessage.kinds_of_issuer hissuer
    exact ⟨fun _ hc => absurd (hclaim.symm.trans hc) nofun, fun hd =>
      absurd (hdevice.symm.trans hd) nofun,
      fun ha => absurd (hanswer.symm.trans ha) nofun⟩

/-- **Nothing is believed without the lock.** -/
theorem nothing_believed_without_the_lock {events : List TermEvent}
    (hrun : termHistories.run events = some h) :
    (∀ message, .apply message ∈ h.effects → h.Sound message) ∧
    (∀ e ∈ h.terms.terms, e.phase = .ended → h.MayBeOver e) ∧
    (∀ key, h.ended.count key ≤ 1) ∧
    h.terms.terms.length ≤ maxTermFlood ∧
    (∀ term, h.terms.current = some term →
      ∃ e ∈ h.terms.terms, e.term = term ∧ e.phase = .live) := by
  have hi := run_inv hrun
  refine ⟨fun message happly => sound_of_believes hi (hi.believes message happly), hi.finished,
    List.nodup_iff_count_le_one.mp hi.once, hi.wellFormed.size, fun term hcur => ?_⟩
  obtain ⟨e, he, hterm, hlive, -⟩ := hi.wellFormed.current term hcur
  exact ⟨e, he, hterm, hlive⟩

/-- A run in which a claim's lock is found held, after one that nobody holds was refused. -/
def believedClaim : List TermEvent :=
  [.message ⟨2, .all, .ownerClaimed 8 .infinity⟩, .message ⟨1, .all, .ownerClaimed 7 .infinity⟩,
    .checkAnswered (0, ⟨8, 2, .infinity⟩) .free, .checkAnswered (1, ⟨7, 1, .infinity⟩) .held]

theorem nothing_believed_without_the_lock_believedClaim :
    ∃ h, termHistories.run believedClaim = some h ∧
      .apply ⟨1, .all, .ownerClaimed 7 .infinity⟩ ∈ h.effects ∧
      h.Sound ⟨1, .all, .ownerClaimed 7 .infinity⟩ := by
  have hrun := (Option.some_get
    (show (termHistories.run believedClaim).isSome = true by decide)).symm
  exact ⟨_, hrun, by decide, (nothing_believed_without_the_lock hrun).1 _ (by decide)⟩

end TermHistory

end SerialBroker
