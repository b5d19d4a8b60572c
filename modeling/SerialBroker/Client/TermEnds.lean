import SerialBroker.Client.OwnerTermsHandled

/-!
# Ended terms, and the current one

Which terms a tab knows to have ended, and when it has a current term. An end is reported for each
term that ends and each end that is reported is remembered; an ended term is forgotten only as the
entry a full memory gives up for a new one, `givenUp?`, or with all the others by `dispose`. A tab
that has a current term loses it only by an end that says so, and one that has none gains one only
by a check answered with the lock held, or by taking a term of its own.
-/

namespace SerialBroker

namespace OwnerTerms

variable {s s' : OwnerTerms} {next id : EntryId} {entry : KnownTerm} {a : TermId}
  {input : TermInput}
  {effects : List TermEffect} {message : ProtocolMessage}

/-- What a full memory drops first: a term that is over. -/
def roomFor? (s : OwnerTerms) : Option KnownTerm :=
  if s.terms.length < maxTermFlood then none else s.terms.find? fun known => known.phase = .ended ∨
    known.phase = .refused

/-- The entry that is over and goes for the new one an input brings: the one it replaces, or the
first a full memory drops. -/
def givenUp? (s : OwnerTerms) : TermInput → Option KnownTerm
  | .message message =>
    match message.claim? with
    | some claim => if s.get? claim.term = none then s.roomFor? else none
    | none => none
  | .takeOwn claim => (s.get? claim.term).or s.roomFor?
  | _ => none

theorem givenUp_mem {g : KnownTerm} (hg : s.givenUp? input = some g) : g ∈ s.terms := by
  have hroom : s.roomFor? = some g → g ∈ s.terms := by
    intro h
    unfold roomFor? at h
    split at h
    · cases h
    · exact List.mem_of_find?_eq_some h
  unfold givenUp? at hg
  split at hg
  · split at hg
    · split at hg
      · exact hroom hg
      · cases hg
    · cases hg
  · rcases Option.or_eq_some_iff.mp hg with hg | ⟨-, hg⟩
    · exact (mem_of_get? hg).1
    · exact hroom hg
  · cases hg

theorem Consistent.isEnded_iff (h : s.Consistent next) :
    s.isEnded a = true ↔ ∃ e ∈ s.terms, e.term = a ∧ e.phase = .ended := by
  unfold isEnded
  constructor
  · intro hended
    cases hget : s.get? a with
    | none => simp [hget] at hended
    | some e =>
      obtain ⟨he, hterm⟩ := mem_of_get? hget
      exact ⟨e, he, hterm, by simpa [hget] using hended⟩
  · rintro ⟨e, he, hterm, hphase⟩
    rw [h.get?_iff.mpr ⟨he, hterm⟩]
    exact decide_eq_true hphase

theorem Consistent.current_not_ended (h : s.Consistent next) (hcurrent : s.current = some a) :
    s.isEnded a = false := by
  rw [Bool.eq_false_iff]
  intro hended
  obtain ⟨e, he, rfl, hphase⟩ := h.isEnded_iff.mp hended
  exact h.not_current he (by rw [hphase]; exact nofun) hcurrent

/-! ### an end is reported, and remembered -/

/-- **A term reported as ended is known to have ended.** -/
theorem Handled.ended_isEnded (h : s.WellFormed next) (hid : next ≤ id)
    (hh : Handled s id input s' effects) {key : EntryId}
    {wasCurrent : Bool} (hended : .ended key a wasCurrent ∈ effects) : s'.isEnded a = true := by
  rw [(hh.wellFormed h hid).isEnded_iff]
  cases hh.effectOf h hended with
  | ended e e' _ he he' hphase hphase' hevolves =>
    exact ⟨e', he', by rw [KnownTerm.term, hevolves.claim], hphase'⟩

/-- An entry that is over afterwards was over before, or its end was reported. -/
theorem mem_ended_of_endTerm (h : s.Consistent next) (he : entry ∈ s.terms)
    (hphase : entry.phase ≠ .ended) {e' : KnownTerm}
    (he' : e' ∈ (s.endTerm entry).1.terms) : e' ∈ s.terms ∨ e'.term = entry.term := by
  rcases (mem_endTerm h he hphase).mp he' with rfl | ⟨hmem, -⟩
  · exact Or.inr rfl
  · exact Or.inl hmem

/-- **A term that a tab knows to have ended was known to have, or its end is reported.** -/
theorem Handled.isEnded_cases (h : s.WellFormed next) (hid : next ≤ id)
    (hh : Handled s id input s' effects)
    (hended : s'.isEnded a = true) :
    s.isEnded a = true ∨ ∃ key wasCurrent, .ended key a wasCurrent ∈ effects := by
  obtain ⟨e', he', rfl, hphase'⟩ := (hh.wellFormed h hid).isEnded_iff.mp hended
  have hbefore : e' ∈ s.terms → s.isEnded e'.term = true :=
    fun hmem => h.isEnded_iff.mpr ⟨e', hmem, rfl, hphase'⟩
  have hmodified : ∀ {entry : KnownTerm} {f : KnownTerm → KnownTerm}, entry ∈ s.terms →
      (f entry).phase ≠ .ended →
      e' ∈ (s.modify entry.key f).terms → s.isEnded e'.term = true := by
    intro entry f he hf he'
    rcases (h.mem_modify he).mp he' with rfl | ⟨hmem, -⟩
    · exact absurd hphase' hf
    · exact hbefore hmem
  have hover : ∀ {entry : KnownTerm} {key : EntryId} {wasCurrent : Bool}, e' ∈ s.terms ∨
      e'.term = entry.term →
      s.isEnded e'.term = true ∨
        ∃ k c, TermEffect.ended k e'.term c ∈
          [TermEffect.abort key, .ended key entry.term wasCurrent] := by
    rintro entry key wasCurrent (hmem | hterm)
    · exact Or.inl (hbefore hmem)
    · exact Or.inr ⟨key,
        wasCurrent, by rw [hterm]; exact List.mem_cons_of_mem _ (List.mem_singleton_self _)⟩
  cases hh with
  | ignored | applied => exact Or.inl (hbefore he')
  | asked message claim hclaim hnew hdisposed =>
    rcases mem_of_mem_remember he' with rfl | hmem
    · cases hphase'
    · exact Or.inl (hbefore hmem)
  | kept message entry run he hc habout hof hroom =>
    exact Or.inl (hmodified he (by rw [keep, hc]; decide) he')
  | heard message entry hbody hsender he hlive hown hending =>
    exact Or.inl (hmodified he (by rw [hear, hlive]; decide) he')
  | goodbye message entry hbody hsender he hlive hown hending =>
    have hwf := h.entries entry he
    have hheard := h.modify (f := hear true) he rfl rfl rfl rfl
      ⟨fun hc => absurd (hlive.symm.trans hc) (by decide), hwf.waiting, hwf.observes, hwf.about⟩
    have hmem : hear true entry ∈ (s.modify entry.key (hear true)).terms :=
      (h.mem_modify he).mpr (Or.inl rfl)
    have hnot : (hear true entry).phase ≠ .ended := by rw [hear, hlive]; decide
    rcases mem_ended_of_endTerm hheard.toConsistent hmem hnot he' with hin | hterm
    · exact Or.inl (hmodified he hnot hin)
    · exact hover (Or.inr hterm)
  | unknown entry he hc => exact Or.inl (hbefore (mem_forget.mp he').1)
  | free entry he hc => exact Or.inl (hmodified (f := refuse) he (by simp [refuse]) he')
  | held entry he hc =>
    rcases (mem_believed h he hc).mp he' with rfl | ⟨e, hmem, -, rfl⟩
    · cases hphase'
    · rw [succeededBy_phase] at hphase'
      rw [succeededBy_term]
      exact Or.inl (h.isEnded_iff.mpr ⟨e, hmem, rfl, hphase'⟩)
  | ending entry he hlive hnot => exact Or.inl (hmodified he (by rw [letGo, hlive]; decide) he')
  | watched entry isEnding he hlive hheard =>
    exact hover (mem_ended_of_endTerm h.toConsistent he (by rw [hlive]; decide) he')
  | took claim =>
    obtain ⟨e, hmem, rfl⟩ := mem_makeCurrent.mp he'
    rw [succeededBy_phase] at hphase'
    rw [succeededBy_term]
    rcases mem_of_mem_remember hmem with rfl | hmem
    · cases hphase'
    · exact Or.inl (h.isEnded_iff.mpr ⟨e, hmem, rfl, hphase'⟩)
  | endedOwn entry he hphase => exact hover (mem_ended_of_endTerm h.toConsistent he hphase he')
  | disposed => cases he'

/-! ### what a full memory gives up -/

/-- An ended term stays remembered, unless the new entry takes its place or it is the one dropped
for it. -/
theorem mem_remember_of_ended (h : s.WellFormed next) {e : KnownTerm} (he : e ∈ s.terms)
    (hended : e.phase = .ended)
    (hplace : e.term ≠ entry.term)
    (hroom : s.get? entry.term = none → ∀ g, s.roomFor? = some g → g.term ≠ e.term) :
    e ∈ (s.remember entry).1.terms := by
  unfold remember
  cases hget : s.get? entry.term with
  | some known =>
    obtain ⟨hknown, hterm⟩ := mem_of_get? hget
    have hlen := KeyedList.length_put_of_mem (a := entry) hknown hterm
    rw [shrink_of_fits (s := { s with terms := KeyedList.put KnownTerm.term entry s.terms })
      (hlen ▸ h.size)]
    exact KeyedList.mem_put_of_ne he hplace
  | none =>
    rw [KeyedList.put_of_lookup_none hget]
    simp only [List.length_append, List.length_singleton, shrink]
    split
    · exact List.mem_append_left _ he
    · next hfull =>
      have hlen : s.terms.length = maxTermFlood := by
        have := h.size
        omega
      obtain ⟨g, hg⟩ : ∃ g, s.terms.find? (fun known =>
          known.phase = .ended ∨ known.phase = .refused) = some g := by
        rw [← Option.isSome_iff_exists, List.find?_isSome]
        exact ⟨e, he, by simp [hended]⟩
      have hroomFor : s.roomFor? = some g := by rw [roomFor?, if_neg (by omega), hg]
      have hold : oldest { s with terms := s.terms ++ [entry] } = some g := by
        rw [oldest, List.find?_append, hg, Option.some_or, Option.some_or]
      have hlt : (KeyedList.erase KnownTerm.term g.term (s.terms ++ [entry])).length <
          (s.terms ++ [entry]).length :=
        KeyedList.length_erase_lt (List.mem_append_left _ (List.mem_of_find?_eq_some hg)) rfl
      rw [List.length_append, List.length_singleton, hlen] at hlt
      simp only [hold]
      simp only [shrink_of_fits (s := (OwnerTerms.forget { s with
        terms := s.terms ++ [entry] } g).1) (Nat.le_of_lt_succ hlt)]
      exact mem_forget.mpr ⟨List.mem_append_left _ he, Ne.symm (hroom hget g hroomFor)⟩

/-- **An ended term stays known to have ended, unless it is the one given up.** -/
theorem Handled.isEnded_kept (h : s.WellFormed next) (hid : next ≤ id)
    (hh : Handled s id input s' effects)
    (hended : s.isEnded a = true) (hdispose : input ≠ .dispose)
    (hkept : ∀ g, s.givenUp? input = some g → g.term ≠ a) :
    s'.isEnded a = true := by
  have hwf' := (hh.wellFormed h hid).toConsistent
  obtain ⟨e, he, rfl, hphase⟩ := h.isEnded_iff.mp hended
  have hmodified : ∀ {entry : KnownTerm} {f : KnownTerm → KnownTerm}, entry ∈ s.terms →
      entry.phase ≠ .ended →
      e ∈ (s.modify entry.key f).terms := by
    intro entry f hentry hne
    refine (h.mem_modify hentry).mpr (Or.inr ⟨he, fun hkey => hne ?_⟩)
    rw [← h.keys.eq_of_mem he hentry hkey, hphase]
  have hover : ∀ {entry : KnownTerm}, entry ∈ s.terms → entry.phase ≠ .ended →
      e ∈ (s.endTerm entry).1.terms := by
    intro entry hentry hne
    refine (mem_endTerm h.toConsistent hentry hne).mpr (Or.inr ⟨he, fun hkey => hne ?_⟩)
    rw [← h.keys.eq_of_mem he hentry hkey, hphase]
  rw [hwf'.isEnded_iff]
  cases hh with
  | ignored | applied => exact ⟨e, he, rfl, hphase⟩
  | asked message claim hclaim hnew hdisposed =>
    have hplace : e.term ≠ claim.term := get?_eq_none.mp hnew e he
    have hroom : ∀ g, s.roomFor? = some g → g.term ≠ e.term := by
      intro g hg
      refine hkept g ?_
      rw [givenUp?, hclaim]
      dsimp only
      rw [if_pos hnew, hg]
    exact ⟨e, mem_remember_of_ended h he hphase hplace fun _ => hroom, rfl, hphase⟩
  | kept message entry run hentry hc =>
    exact ⟨e, hmodified hentry (by rw [hc]; exact nofun), rfl, hphase⟩
  | heard message entry hbody hsender hentry hlive =>
    exact ⟨e, hmodified hentry (by rw [hlive]; exact nofun), rfl, hphase⟩
  | goodbye message entry hbody hsender hentry hlive =>
    have hwf := h.entries entry hentry
    have hheard := h.modify (f := hear true) hentry rfl rfl rfl rfl
      ⟨fun hc => absurd (hlive.symm.trans hc) nofun, hwf.waiting, hwf.observes, hwf.about⟩
    have hmem : hear true entry ∈ (s.modify entry.key (hear true)).terms :=
      (h.mem_modify hentry).mpr (Or.inl rfl)
    have hnot : (hear true entry).phase ≠ .ended := by rw [hear, hlive]; exact nofun
    refine ⟨e, (mem_endTerm hheard.toConsistent hmem hnot).mpr
      (Or.inr ⟨hmodified hentry (by rw [hlive]; exact nofun), fun hkey => ?_⟩),
      rfl, hphase⟩
    have heq := h.keys.eq_of_mem he hentry hkey
    rw [heq, hlive] at hphase
    cases hphase
  | unknown entry hentry hc =>
    refine ⟨e, mem_forget.mpr ⟨he, fun hterm => ?_⟩, rfl, hphase⟩
    rw [h.terms.eq_of_mem he hentry hterm, hc] at hphase
    cases hphase
  | free entry hentry hc => exact ⟨e, hmodified hentry (by rw [hc]; exact nofun), rfl, hphase⟩
  | held entry hentry hc =>
    refine ⟨succeededBy s.current entry.term e,
      (mem_believed h hentry hc).mpr (Or.inr ⟨e, he, fun hkey => ?_, rfl⟩), ?_, ?_⟩
    · rw [h.keys.eq_of_mem he hentry hkey, hc] at hphase
      cases hphase
    · rw [succeededBy_term]
    · rw [succeededBy_phase, hphase]
  | ending entry hentry hlive =>
    exact ⟨e, hmodified hentry (by rw [hlive]; exact nofun), rfl, hphase⟩
  | watched entry isEnding hentry hlive =>
    exact ⟨e, hover hentry (by rw [hlive]; exact nofun), rfl, hphase⟩
  | took claim =>
    have hplace : e.term ≠ claim.term := by
      intro hterm
      refine hkept e ?_ rfl
      rw [givenUp?, h.get?_iff.mpr ⟨he, hterm⟩, Option.some_or]
    have hroom : s.get? claim.term = none → ∀ g, s.roomFor? = some g → g.term ≠ e.term := by
      intro hnew g hg
      refine hkept g ?_
      rw [givenUp?, hnew, Option.none_or, hg]
    have hmem : e ∈ (s.remember (newEntry id claim .live true)).1.terms :=
      mem_remember_of_ended h he hphase hplace hroom
    refine ⟨_, mem_makeCurrent.mpr ⟨e, hmem, rfl⟩, ?_, ?_⟩
    · rw [succeededBy_term]
    · rw [succeededBy_phase, hphase]
  | endedOwn entry hentry hne => exact ⟨e, hover hentry hne, rfl, hphase⟩
  | disposed => exact absurd rfl hdispose

/-! ### the current term -/

theorem endTerm_current (hphase : entry.phase ≠ .ended) :
    (s.endTerm entry).1.current = if s.current = some entry.term then none else s.current := by
  rw [endTerm_eq hphase]

/-- **A tab loses its current term only by an end that says so.** -/
theorem Handled.current_lost (hh : Handled s id input s' effects)
    (hdispose : input ≠ .dispose) (hcurrent : s'.current = none) :
    s.current = none ∨ ∃ key a, .ended key a true ∈ effects := by
  have hover : ∀ {u : OwnerTerms} {entry : KnownTerm} {key : EntryId} {b : KnownTerm},
      u.current = s.current → b.term = entry.term →
      b.phase ≠ .ended → (u.endTerm b).1.current = none →
      s.current = none ∨ ∃ k a, TermEffect.ended k a true ∈ [.abort key,
        .ended key entry.term (s.current = some entry.term)] := by
    intro u entry key b hu hb hne hnone
    rw [endTerm_current hne, hu, hb] at hnone
    split at hnone
    · next heq => exact Or.inr ⟨key, entry.term, by simp [heq]⟩
    · exact Or.inl hnone
  cases hh with
  | ignored | applied | kept | heard | unknown | free | ending => exact Or.inl hcurrent
  | asked message claim hclaim hnew hdisposed =>
    rw [remember_current] at hcurrent
    exact Or.inl hcurrent
  | goodbye message entry hbody hsender he hlive =>
    exact hover (b := hear true entry) modify_current rfl (by rw [hear, hlive]; decide) hcurrent
  | held entry he hc =>
    rw [believed, modify_current, makeCurrent_current] at hcurrent
    cases hcurrent
  | watched entry isEnding he hlive => exact hover rfl rfl (by rw [hlive]; decide) hcurrent
  | took claim =>
    rw [makeCurrent_current] at hcurrent
    cases hcurrent
  | endedOwn entry he hphase => exact hover rfl rfl hphase hcurrent
  | disposed => exact absurd rfl hdispose

/-- **A tab without a current term gains one only by a check that finds the lock held, or by a term
of its own.** -/
theorem Handled.current_gained (hh : Handled s id input s' effects)
    (hbefore : s.current = none) (hafter : s'.current ≠ none) :
    (∃ e ∈ s.terms, e.phase = .checking ∧ input = .checkAnswered e.key .held) ∨
      ∃ claim, input = .takeOwn claim := by
  have hover : ∀ {u : OwnerTerms} {b : KnownTerm}, u.current = s.current → b.phase ≠ .ended →
      (u.endTerm b).1.current = none := by
    intro u b hu hne
    rw [endTerm_current hne, hu, hbefore]
    exact if_neg (Option.some_ne_none b.term).symm
  cases hh with
  | ignored | applied | kept | heard | unknown | free | ending => exact absurd hbefore hafter
  | asked message claim hclaim hnew hdisposed =>
    rw [remember_current] at hafter
    exact absurd hbefore hafter
  | goodbye message entry hbody hsender he hlive =>
    exact absurd (hover (b := hear true entry) modify_current (by rw [hear, hlive]; decide)) hafter
  | held entry he hc => exact Or.inl ⟨entry, he, hc, rfl⟩
  | watched entry isEnding he hlive => exact absurd (hover rfl (by rw [hlive]; decide)) hafter
  | took claim => exact Or.inr ⟨claim, rfl⟩
  | endedOwn entry he hphase => exact absurd (hover rfl hphase) hafter
  | disposed => exact absurd rfl hafter

/-- **Once a claim or a status is applied, there is a current term.** -/
theorem Handled.applied_current (h : s.WellFormed next) (hh : Handled s id input s' effects)
    (happlied : .apply message ∈ effects)
    (hclaim : message.claim? ≠ none) : s'.current ≠ none := by
  cases hh.effectOf h happlied with
  | apply _ hb =>
    cases hb with
    | claim e he _ hlive hfirst hcurrent =>
      rw [hcurrent]
      exact nofun
    | device e he hdevice => exact absurd (ProtocolMessage.kinds_of_device hdevice).1 hclaim
    | answer e he hanswer => exact absurd (ProtocolMessage.kinds_of_answer hanswer).1 hclaim
    | issuer hissuer => exact absurd (ProtocolMessage.kinds_of_issuer hissuer).1 hclaim

end OwnerTerms

end SerialBroker
