import Mathlib.Data.List.Dedup
import Mathlib.Data.List.Perm.Subperm
import SerialBroker.Client.OwnerTermsHandled

/-!
# Forged messages and the terms

Two runs of one tab's terms are compared: one over a list of inputs, and one in which the inputs at
some positions, the forged ones, do not happen. A position is the identity of the entry its input
creates, so that the two runs speak of the same entries. What a tab lets through and the terms it
reports ended are its observations.

Without the forged entries the memory of the full run is the memory of the other (`withoutForged`),
as long as no honest step meets a forged entry where it expects none; then every observation is the
same. Where one does, it need not be: a forged claim that arrives first keeps the honest holder's
claim of that term out.
-/

namespace SerialBroker

/-- Whether the host sees it: a message applied, or the end of a term. -/
def TermEffect.isObserved : TermEffect → Bool
  | .apply _ | .ended .. => true
  | .check .. | .watch .. | .abort _ => false

namespace TermInput

/-- What an input says about a term it can create an entry for. -/
def claim? : TermInput → Option TermClaim
  | .message m => m.claim?
  | .takeOwn claim => some claim
  | _ => none

/-- The term an input makes, makes current or ends. -/
def named? : TermInput → Option TermId
  | .message m => m.claim?.map TermClaim.term
  | .takeOwn claim => some claim.term
  | .endOwn term => some term
  | _ => none

/-- A step of an honest tab or an answer to an honest entry; the lock of every claim an honest tab
makes is held at some time. -/
structure IsHonest (held : TermClaim → Prop) (forged : EntryId → Bool) (input : TermInput) :
    Prop where
  claim : ∀ claim, input.claim? = some claim → held claim
  check : ∀ key answer, input = .checkAnswered key answer → forged key = false
  watch : ∀ key isEnding, input = .watchAnswered key isEnding → forged key = false

/-- A message that names a lock nobody holds, or the answer to the check of such a lock. -/
def IsForged (held : TermClaim → Prop) (forged : EntryId → Bool) : TermInput → Prop
  | .message m =>
    match m.body with
    | .ownerClaimed term maxTabs | .status _ maxTabs term => ¬ held ⟨term, m.sender, maxTabs⟩
    | .ownerReleased term => ∀ claim, held claim → ¬ (claim.term = term ∧ claim.sender = m.sender)
    | .dataReceived .. | .dataSent .. | .error _ => ∀ claim, held claim → claim.sender ≠ m.sender
    | _ => False
  | .checkAnswered key answer => forged key = true ∧ answer ≠ .held
  | _ => False

end TermInput

namespace OwnerTerms

/-- What the host sees of an input: what was let through or ended, and the term that is current
afterwards. -/
structure Observation where
  effects : List TermEffect
  current : Option TermId
  deriving DecidableEq

/-- The observations of a run over the inputs, the first of which has the identity `id`, without
those at the positions `skipped`. -/
def observations (skipped : EntryId → Bool) (s : OwnerTerms) (id : EntryId) :
    List TermInput → List Observation
  | [] => []
  | input :: inputs =>
    let handled := if skipped id then (s, []) else s.handle id input
    ⟨handled.2.filter TermEffect.isObserved, handled.1.current⟩ ::
      observations skipped handled.1 (id + 1) inputs

/-- Inputs of which those at the `forged` positions are forged and the others honest, with fewer
terms than a tab keeps. -/
structure Insertion (held : TermClaim → Prop) (forged : EntryId → Bool) (inputs : List TermInput) :
    Prop where
  honest : ∀ id input, inputs[id]? = some input → forged id = false → input.IsHonest held forged
  inserted : ∀ id input, inputs[id]? = some input → forged id = true → input.IsForged held forged
  few : (inputs.filterMap fun input => input.claim?.map TermClaim.term).dedup.length < maxTermFlood

/-- An honest step finds no forged entry under the term it names, an honest write answer none of its
sender that it would be believed on, and honest data whose sender is being checked does not find a
forged entry of that sender first. -/
structure Clear (forged : EntryId → Bool) (s : OwnerTerms) (input : TermInput) : Prop where
  named : ∀ term, input.named? = some term → ∀ entry ∈ s.terms, entry.term = term →
    forged entry.key = false
  answer : ∀ message, input = .message message → ∀ entry ∈ s.terms,
    message.body.answerTerm? = some entry.term → entry.claim.sender = message.sender →
    entry.phase ≠ .refused → forged entry.key = false
  device : ∀ message, input = .message message → message.body.isAboutDevice = true →
    s.speaksForLiveTerm message.sender = false →
    ∀ first, s.checkedTermOf message.sender = some first → forged first.key = true →
      ∀ entry ∈ s.terms, entry.claim.sender = message.sender → entry.phase = .checking →
        forged entry.key = true

/-- Every honest step of the full run is clear of forged entries. -/
def AlwaysClear (forged : EntryId → Bool) (s : OwnerTerms) (id : EntryId) : List TermInput → Prop
  | [] => True
  | input :: inputs =>
    (forged id = false → s.Clear forged input) ∧
      AlwaysClear forged (s.handle id input).1 (id + 1) inputs

/-! ### the memory without the forged entries -/

/-- The memory without the entries that forged messages made. -/
def withoutForged (forged : EntryId → Bool) (s : OwnerTerms) : OwnerTerms :=
  { s with terms := s.terms.filter fun entry => !forged entry.key }

variable {s : OwnerTerms} {next id key : EntryId} {entry : KnownTerm} {claim : TermClaim}
  {message : ProtocolMessage} {term : TermId} {forged : EntryId → Bool} {held : TermClaim → Prop}

theorem mem_withoutForged :
    entry ∈ (s.withoutForged forged).terms ↔ entry ∈ s.terms ∧ forged entry.key = false := by
  simp [withoutForged]

/-- What the comparison needs of the full run: forged entries never get past their check, and honest
ones are about locks that are held. -/
structure Sorted (held : TermClaim → Prop) (forged : EntryId → Bool) (s : OwnerTerms) : Prop where
  refused : ∀ entry ∈ s.terms, forged entry.key = true → entry.phase = .checking ∨
    entry.phase = .refused
  unheld : ∀ entry ∈ s.terms, forged entry.key = true → ¬ held entry.claim
  honest : ∀ entry ∈ s.terms, forged entry.key = false → held entry.claim

theorem Sorted.honest_of_live (hs : s.Sorted held forged) (he : entry ∈ s.terms)
    (hlive : entry.phase = .live) :
    forged entry.key = false := by
  by_contra hf
  rcases hs.refused entry he (by simpa using hf) with h | h
  · exact absurd (hlive.symm.trans h) nofun
  · exact absurd (hlive.symm.trans h) nofun

/-- A memory with no forged entry is clear for every step. -/
theorem Clear.of_honest {input : TermInput} (h : ∀ entry ∈ s.terms, forged entry.key = false) :
    s.Clear forged input where
  named _ _ entry he _ := h entry he
  answer _ _ entry he _ _ _ := h entry he
  device _ _ _ _ first hfirst hf := by
    rw [h first (List.mem_of_find?_eq_some hfirst)] at hf
    cases hf

theorem withoutForged_wellFormed (h : s.WellFormed next) (hs : s.Sorted held forged) :
    (s.withoutForged forged).WellFormed next where
  terms := h.terms.sublist (List.filter_sublist.map _)
  keys := h.keys.sublist (List.filter_sublist.map _)
  fresh entry he := h.fresh entry (mem_withoutForged.mp he).1
  entries entry he := h.entries entry (mem_withoutForged.mp he).1
  current term hcur := by
    obtain ⟨entry, he, hterm, hlive, hfirst⟩ := h.current term hcur
    exact ⟨entry, mem_withoutForged.mpr ⟨he, hs.honest_of_live he hlive⟩, hterm, hlive, hfirst⟩
  disposed hd entry he := h.disposed hd entry (mem_withoutForged.mp he).1
  size := Nat.le_trans (List.length_filter_le _ _) h.size
  led entry he hlive := h.led entry (mem_withoutForged.mp he).1 hlive

/-! ### each operation without the forged entries -/

theorem withoutForged_modify {f : KnownTerm → KnownTerm} (hf : ∀ e, (f e).key = e.key) :
    (s.modify key f).withoutForged forged = (s.withoutForged forged).modify key f := by
  unfold withoutForged OwnerTerms.modify KeyedList.adjust
  rw [List.filter_map]
  congr 3
  funext e
  simp only [Function.comp_apply]
  split
  · rw [hf]
  · rfl

theorem withoutForged_modify_forged {f : KnownTerm → KnownTerm} (hf : ∀ e, (f e).key = e.key)
    (hkey : forged key = true) :
    (s.modify key f).withoutForged forged = s.withoutForged forged := by
  rw [withoutForged_modify hf]
  have hsame : ∀ e ∈ (s.withoutForged forged).terms, (if e.key = key then f e else e) = e := by
    intro e he
    refine if_neg fun hk => ?_
    rw [← hk, (mem_withoutForged.mp he).2] at hkey
    cases hkey
  simp only [OwnerTerms.modify, KeyedList.adjust, List.map_congr_left hsame, List.map_id']

theorem withoutForged_forget :
    (s.forget entry).1.withoutForged forged = ((s.withoutForged forged).forget entry).1 := by
  simp only [withoutForged, OwnerTerms.forget, KeyedList.erase, List.filter_filter, Bool.and_comm]

theorem withoutForged_makeCurrent :
    (s.makeCurrent entry).withoutForged forged = (s.withoutForged forged).makeCurrent entry := by
  ext1
  · rw [makeCurrent_terms]
    simp only [withoutForged, makeCurrent_terms]
    rw [List.filter_map]
    congr 2
    funext e
    simp
  · rw [makeCurrent_current]
    exact makeCurrent_current
  · rw [makeCurrent_isDisposed]
    exact makeCurrent_isDisposed

theorem withoutForged_endTerm (hphase : entry.phase ≠ .ended) :
    (s.endTerm entry).1.withoutForged forged = ((s.withoutForged forged).endTerm entry).1 := by
  have hmodify : (s.modify entry.key finished).withoutForged forged = (s.withoutForged
      forged).modify entry.key finished :=
    withoutForged_modify fun _ => rfl
  have hterms := congrArg OwnerTerms.terms hmodify
  simp only [endTerm_eq hphase]
  ext1
  · exact hterms
  · rfl
  · rfl

theorem withoutForged_believed :
    (s.believed entry).withoutForged forged = (s.withoutForged forged).believed entry := by
  unfold believed
  rw [withoutForged_modify (f := hear (entry.waiting.any Waiting.isGoodbye)) fun _ => rfl,
    withoutForged_makeCurrent,
    withoutForged_modify (f := OwnerTerms.held) fun _ => rfl]

/-- A new entry under a term no forged entry is kept under. -/
theorem filter_put (hkey : forged entry.key = false) {terms : List KnownTerm}
    (hterms : ∀ e ∈ terms, e.term = entry.term → forged e.key = false) :
    (KeyedList.put KnownTerm.term entry terms).filter (fun e => !forged e.key) =
      KeyedList.put KnownTerm.term entry (terms.filter fun e => !forged e.key) := by
  induction terms with
  | nil => simp [KeyedList.put, hkey]
  | cons e terms ih =>
    have hrest := ih fun a ha => hterms a (List.mem_cons_of_mem _ ha)
    by_cases hterm : e.term = entry.term
    · have he := hterms e List.mem_cons_self hterm
      simp [KeyedList.put, hterm, hkey, he]
    · by_cases he : forged e.key
      · simp [KeyedList.put, hterm, he, hrest]
      · simp [KeyedList.put, hterm, he, hrest]

/-- What a full run needs to remember every entry: fewer terms than a tab keeps. -/
def Roomy (named : List TermId) (s : OwnerTerms) : Prop := ∀ entry ∈ s.terms, entry.term ∈ named

theorem Roomy.length_lt {named : List TermId} (hroom : s.Roomy named)
    (h : KeyedList.Distinct KnownTerm.term s.terms)
    (hfew : named.dedup.length < maxTermFlood) : s.terms.length < maxTermFlood := by
  have hsub : s.terms.map KnownTerm.term ⊆ named.dedup := by
    intro t ht
    obtain ⟨e, he, rfl⟩ := List.mem_map.mp ht
    exact List.mem_dedup.mpr (hroom e he)
  have hle := (List.Nodup.subperm h hsub).length_le
  rw [List.length_map] at hle
  exact Nat.lt_of_le_of_lt hle hfew

theorem remember_of_room (hsize : s.terms.length < maxTermFlood) :
    s.remember entry = ({ s with terms := KeyedList.put KnownTerm.term entry s.terms }, []) := by
  have hlen : (KeyedList.put KnownTerm.term entry s.terms).length ≤ s.terms.length + 1 :=
    KeyedList.length_put_le
  exact shrink_of_fits (Nat.le_trans hlen hsize) _

/-! ### each method without the forged entries -/

theorem get?_withoutForged (h : s.Consistent next)
    (hclear : ∀ e ∈ s.terms, e.term = term → forged e.key = false) :
    (s.withoutForged forged).get? term = s.get? term := by
  cases hget : s.get? term with
  | none =>
    exact get?_eq_none.mpr fun e he => get?_eq_none.mp hget e (mem_withoutForged.mp he).1
  | some e =>
    obtain ⟨he, hterm⟩ := mem_of_get? hget
    have hdistinct : KeyedList.Distinct KnownTerm.term (s.withoutForged forged).terms :=
      h.terms.sublist (List.filter_sublist.map _)
    exact hdistinct.lookup_iff.mpr ⟨mem_withoutForged.mpr ⟨he, hclear e he hterm⟩, hterm⟩

theorem get?_withoutForged_of_forged (h : s.Consistent next) (he : entry ∈ s.terms)
    (hf : forged entry.key = true) :
    (s.withoutForged forged).get? entry.term = none := by
  refine get?_eq_none.mpr fun e hmem hterm => ?_
  obtain ⟨hmem, hhonest⟩ := mem_withoutForged.mp hmem
  rw [h.terms.eq_of_mem hmem he hterm, hf] at hhonest
  cases hhonest

theorem isFrom_withoutForged (h : s.Consistent next) {sender : ClientId}
    (hclear : ∀ e ∈ s.terms, e.term = term → e.claim.sender = sender → e.phase ≠ .refused →
      forged e.key = false) :
    (s.withoutForged forged).isFrom term sender = s.isFrom term sender := by
  by_cases hforged : ∃ e ∈ s.terms, e.term = term ∧ forged e.key = true
  · obtain ⟨e, he, rfl, hf⟩ := hforged
    have hnone := get?_withoutForged_of_forged h he hf
    have hsome : s.get? e.term = some e := h.terms.lookup he
    have hnot : ¬ (e.phase ≠ .refused ∧ e.claim.sender = sender) := by
      rintro ⟨hphase, hsender⟩
      rw [hclear e he rfl hsender hphase] at hf
      cases hf
    simp only [isFrom, hnone, hsome, hnot, decide_false]
  · have hget : (s.withoutForged forged).get? term = s.get? term :=
      get?_withoutForged h fun e he hterm => by
        by_contra hf
        exact hforged ⟨e, he, hterm, by simpa using hf⟩
    simp only [isFrom, hget]

theorem entryOf?_withoutForged (h : s.Consistent next) (hkey : forged key = false) :
    (s.withoutForged forged).entryOf? key = s.entryOf? key := by
  cases hentry : s.entryOf? key with
  | none =>
    exact KeyedList.lookup_eq_none.mpr fun e he =>
      KeyedList.lookup_eq_none.mp hentry e (mem_withoutForged.mp he).1
  | some e =>
    obtain ⟨he, rfl⟩ := mem_of_entryOf? hentry
    have hdistinct : KeyedList.Distinct KnownTerm.key (s.withoutForged forged).terms :=
      h.keys.sublist (List.filter_sublist.map _)
    exact hdistinct.lookup (mem_withoutForged.mpr ⟨he, hkey⟩)

theorem speaksForLiveTerm_withoutForged (hs : s.Sorted held forged) (sender : ClientId) :
    (s.withoutForged forged).speaksForLiveTerm sender = s.speaksForLiveTerm sender := by
  rw [Bool.eq_iff_iff]
  unfold speaksForLiveTerm
  simp only [List.any_eq_true, mem_withoutForged, decide_eq_true_eq]
  constructor
  · rintro ⟨e, ⟨he, -⟩, hspeaks⟩
    exact ⟨e, he, hspeaks⟩
  · rintro ⟨e, he, hspeaks⟩
    exact ⟨e, ⟨he, hs.honest_of_live he hspeaks.2⟩, hspeaks⟩

theorem waitFor_withoutForged {run : Waiting} :
    (s.waitFor entry run).withoutForged forged = (s.withoutForged forged).waitFor entry run := by
  unfold waitFor
  split
  · rfl
  · exact withoutForged_modify fun _ => rfl

theorem waitFor_withoutForged_of_forged {run : Waiting} (hf : forged entry.key = true) :
    (s.waitFor entry run).withoutForged forged = s.withoutForged forged := by
  unfold waitFor
  split
  · rfl
  · exact withoutForged_modify_forged (fun _ => rfl) hf

theorem observe_withoutForged (h : s.WellFormed next) (hsize : s.terms.length < maxTermFlood)
    (hid : forged id = false)
    (hclear : ∀ e ∈ s.terms, e.term = claim.term → forged e.key = false) :
    (s.withoutForged forged).observe id claim message =
      ((s.observe id claim message).1.withoutForged forged, (s.observe id claim message).2) := by
  have hget := get?_withoutForged h.toConsistent hclear
  have hdisposed : (s.withoutForged forged).isDisposed = s.isDisposed := rfl
  unfold observe
  rw [hdisposed, hget]
  split
  · rfl
  · split
    · have hsize' : (s.withoutForged forged).terms.length < maxTermFlood :=
        Nat.lt_of_le_of_lt (List.length_filter_le _ _) hsize
      have hput : (KeyedList.put KnownTerm.term (checkedEntry id claim message) s.terms).filter
          (fun e => !forged e.key) =
          _ := filter_put hid hclear
      have hstart : ∀ t : OwnerTerms,
          t.startChecking id claim message = ((t.remember (checkedEntry id claim message)).1,
          (t.remember (checkedEntry id claim message)).2 ++ [.check id claim]) := fun _ => rfl
      rw [hstart, hstart, remember_of_room hsize', remember_of_room hsize]
      exact Prod.ext (OwnerTerms.ext hput.symm rfl rfl) rfl
    · split
      · rfl
      · split
        · exact Prod.ext waitFor_withoutForged.symm rfl
        · split
          · rfl
          · exact Prod.ext withoutForged_makeCurrent.symm rfl

theorem heardReleased_withoutForged (h : s.WellFormed next) (hs : s.Sorted held forged)
    {sender : ClientId} :
    (s.withoutForged forged).heardReleased term sender =
      ((s.heardReleased term sender).1.withoutForged forged, (s.heardReleased term sender).2) := by
  by_cases hclear : ∀ e ∈ s.terms, e.term = term → forged e.key = false
  · have hget := get?_withoutForged h.toConsistent hclear
    unfold heardReleased
    simp only [modify_hear_true]
    rw [hget]
    cases hfound : s.get? term with
    | none => rfl
    | some entry =>
      simp only
      split
      · rfl
      · split
        · exact Prod.ext waitFor_withoutForged.symm rfl
        · split
          · rfl
          · next hother =>
            simp only [ne_eq, not_or, not_not] at hother
            have hphase : entry.phase ≠ .ended :=
              fun hended => absurd (hother.1.symm.trans hended) nofun
            split
            · rw [← withoutForged_modify (f := hear true) fun _ => rfl]
              refine Prod.ext (withoutForged_endTerm hphase).symm ?_
              rw [endTerm_effects hphase, endTerm_effects hphase]
              rfl
            · exact Prod.ext (withoutForged_modify (f := hear true) fun _ => rfl).symm rfl
  · push Not at hclear
    obtain ⟨entry, he, rfl, hf⟩ := hclear
    have hf : forged entry.key = true := by simpa using hf
    have hnone := get?_withoutForged_of_forged h.toConsistent he hf
    have hsome := h.get?_iff.mpr ⟨he, rfl⟩
    unfold heardReleased
    rw [hnone, hsome]
    simp only
    split
    · rfl
    · split
      · exact Prod.ext (waitFor_withoutForged_of_forged hf).symm rfl
      · split
        · rfl
        · next hnot hother =>
          simp only [ne_eq, not_or, not_not] at hother
          exact absurd (hs.honest_of_live he hother.1) (by simp [hf])

theorem checkAnswered_withoutForged (h : s.WellFormed next) (hs : s.Sorted held forged)
    (hkey : forged key = false)
    {answer : CheckAnswer} : (s.withoutForged forged).checkAnswered id key answer =
      ((s.checkAnswered id key answer).1.withoutForged forged,
        (s.checkAnswered id key answer).2) := by
  have hentry := entryOf?_withoutForged h.toConsistent hkey
  cases hfound : s.entryOf? key with
  | none =>
    rw [hfound] at hentry
    simp only [checkAnswered, hfound, hentry]
  | some entry =>
    rw [hfound] at hentry
    obtain ⟨he, rfl⟩ := mem_of_entryOf? hfound
    by_cases hc : entry.phase = .checking
    · cases answer with
      | unknown =>
        simp only [checkAnswered, hfound, hentry, hc, ne_eq, not_true_eq_false, if_false]
        exact Prod.ext withoutForged_forget.symm rfl
      | free =>
        simp only [checkAnswered, hfound, hentry, hc, ne_eq, not_true_eq_false, if_false]
        exact Prod.ext (withoutForged_modify (f := refuse) fun _ => rfl).symm rfl
      | held =>
        rw [checkAnswered_held h he hc, checkAnswered_held (withoutForged_wellFormed h hs)
          (mem_withoutForged.mpr ⟨he, hkey⟩) hc,
          withoutForged_believed]
    · simp only [checkAnswered, hfound, hentry, ne_eq, hc, not_false_eq_true, if_true]

theorem watchAnswered_withoutForged (h : s.WellFormed next) (hkey : forged key = false)
    {isEnding : Bool} :
    (s.withoutForged forged).watchAnswered key isEnding =
      ((s.watchAnswered key isEnding).1.withoutForged forged,
        (s.watchAnswered key isEnding).2) := by
  have hentry := entryOf?_withoutForged h.toConsistent hkey
  unfold watchAnswered
  rw [hentry]
  cases hfound : s.entryOf? key with
  | none => rfl
  | some entry =>
    simp only
    split
    · rfl
    · next hlive =>
      have hphase : entry.phase ≠ .ended := fun hended => hlive (by rw [hended]; exact nofun)
      split
      · exact Prod.ext (withoutForged_modify (f := letGo) fun _ => rfl).symm rfl
      · refine Prod.ext (withoutForged_endTerm hphase).symm ?_
        rw [endTerm_effects hphase, endTerm_effects hphase]
        rfl

theorem takeOwn_withoutForged (hsize : s.terms.length < maxTermFlood) (hid : forged id = false)
    (hclear : ∀ e ∈ s.terms, e.term = claim.term → forged e.key = false) :
    (s.withoutForged forged).takeOwn id claim =
      ((s.takeOwn id claim).1.withoutForged forged, (s.takeOwn id claim).2) := by
  have hsize' : (s.withoutForged forged).terms.length < maxTermFlood :=
    Nat.lt_of_le_of_lt (List.length_filter_le _ _) hsize
  have hput : (KeyedList.put KnownTerm.term (newEntry id claim .live true) s.terms).filter (fun e =>
      !forged e.key) = _ :=
    filter_put hid hclear
  have htake : ∀ t : OwnerTerms,
    t.takeOwn id claim = ((t.remember (newEntry id claim .live true)).1.makeCurrent
      (newEntry id claim .live true), (t.remember (newEntry id claim .live true)).2) := fun _ => rfl
  rw [htake, htake, remember_of_room hsize', remember_of_room hsize, withoutForged_makeCurrent]
  simp only [withoutForged, hput]

theorem endOwn_withoutForged (h : s.WellFormed next)
    (hclear : ∀ e ∈ s.terms, e.term = term → forged e.key = false) :
    (s.withoutForged forged).endOwn term = ((s.endOwn term).1.withoutForged forged,
      (s.endOwn term).2) := by
  unfold endOwn
  rw [get?_withoutForged h.toConsistent hclear]
  cases s.get? term with
  | none => rfl
  | some entry =>
    by_cases hphase : entry.phase = .ended
    · simp only [endTerm, hphase, if_true]
    · refine Prod.ext (withoutForged_endTerm hphase).symm ?_
      simp only [endTerm_effects hphase]
      rfl

/-- Data of a sender that no honest entry is being checked for reaches no one, whether or not a
forged entry takes it in. -/
theorem checkedTermOf_withoutForged {sender : ClientId}
    (hclear : ∀ first, s.checkedTermOf sender = some first → forged first.key = true →
      ∀ e ∈ s.terms, e.claim.sender = sender → e.phase = .checking → forged e.key = true) :
    (s.withoutForged forged).checkedTermOf sender = (s.checkedTermOf sender).filter fun e =>
      !forged e.key := by
  cases hfirst : s.checkedTermOf sender with
  | none =>
    refine List.find?_eq_none.mpr fun e he => ?_
    exact List.find?_eq_none.mp hfirst e (mem_withoutForged.mp he).1
  | some first =>
    cases hf : forged first.key with
    | true =>
      have hnone : (s.withoutForged forged).checkedTermOf sender = none := by
        refine List.find?_eq_none.mpr fun e he hchecked => ?_
        obtain ⟨he, hhonest⟩ := mem_withoutForged.mp he
        simp only [decide_eq_true_eq] at hchecked
        rw [hclear first hfirst hf e he hchecked.1 hchecked.2] at hhonest
        cases hhonest
      simp [hnone, Option.filter, hf]
    | false =>
      have hsome : (s.withoutForged forged).checkedTermOf sender = some first := by
        unfold checkedTermOf withoutForged
        rw [List.find?_filter]
        have hfirst' := hfirst
        unfold checkedTermOf at hfirst'
        obtain ⟨hchecked, before, after, hlist, hbefore⟩ := List.find?_eq_some_iff_append.mp hfirst'
        refine List.find?_eq_some_iff_append.mpr ⟨by simpa [hf] using hchecked, before, after,
          hlist, fun e he => ?_⟩
        have := hbefore e he
        simp_all
      simp [hsome, Option.filter, hf]

theorem authorize_withoutForged (h : s.WellFormed next) (hs : s.Sorted held forged)
    (hsize : s.terms.length < maxTermFlood)
    (hid : forged id = false) (hclear : s.Clear forged (.message message)) :
    (s.withoutForged forged).authorize id message =
      ((s.authorize id message).1.withoutForged forged, (s.authorize id message).2) := by
  have hdisposed : (s.withoutForged forged).isDisposed = s.isDisposed := rfl
  have hanswer : ∀ term, message.body.answerTerm? = some term →
      (s.withoutForged forged).isFrom term message.sender = s.isFrom term message.sender := by
    intro term hterm
    refine isFrom_withoutForged h.toConsistent fun e he heq => ?_
    exact hclear.answer message rfl e he (by rw [hterm, heq])
  have hclaim : ∀ claim, message.claim? = some claim →
      (s.withoutForged forged).observe id claim message =
      ((s.observe id claim message).1.withoutForged forged, (s.observe id claim message).2) := by
    intro claim hclaim
    refine observe_withoutForged h hsize hid (hclear.named claim.term ?_)
    simp [TermInput.named?, hclaim]
  have hdevice : message.body.isAboutDevice = true →
      (s.withoutForged forged).authorizeDevice message =
        ((s.authorizeDevice message).1.withoutForged forged, (s.authorizeDevice message).2) := by
    intro hbody
    unfold authorizeDevice
    rw [speaksForLiveTerm_withoutForged hs]
    split
    · rfl
    · next hspeaks =>
      rw [checkedTermOf_withoutForged (hclear.device message rfl hbody (by simpa using hspeaks))]
      cases hfirst : s.checkedTermOf message.sender with
      | none => rfl
      | some first =>
        cases hf : forged first.key with
        | true =>
          simp only [Option.filter, hf, Bool.not_true, Bool.false_eq_true, if_false]
          exact Prod.ext (waitFor_withoutForged_of_forged hf).symm rfl
        | false =>
          simp only [Option.filter, hf, Bool.not_false, if_true]
          exact Prod.ext waitFor_withoutForged.symm rfl
  unfold authorize
  rw [hdisposed]
  split
  · rfl
  · cases hbody : message.body with
    | ownerClaimed term maxTabs =>
      exact hclaim ⟨term, message.sender, maxTabs⟩ (by simp [ProtocolMessage.claim?, hbody])
    | status status maxTabs term =>
      exact hclaim ⟨term, message.sender, maxTabs⟩ (by simp [ProtocolMessage.claim?, hbody])
    | ownerReleased term => exact heardReleased_withoutForged h hs
    | writeReady requestId term question =>
      dsimp only
      rw [hanswer term (by simp [hbody, MessageBody.answerTerm?])]
      split <;> rfl
    | writeResult requestId ok error term =>
      cases term with
      | none => rfl
      | some term =>
        dsimp only
        rw [hanswer term (by simp [hbody, MessageBody.answerTerm?])]
        split <;> rfl
    | dataReceived payload text => exact hdevice (by simp [hbody, MessageBody.isAboutDevice])
    | dataSent payload originClientId => exact hdevice (by simp [hbody, MessageBody.isAboutDevice])
    | error error => exact hdevice (by simp [hbody, MessageBody.isAboutDevice])
    | writeRequest requestId payload term => rfl
    | writeApproval requestId term approved question => rfl
    | statusRequest retry => rfl

/-! ### one step of both runs -/

/-- An honest step does to the other run's memory what it does to this one's, and the host sees the
same. -/
theorem handle_honest (h : s.WellFormed next) (hs : s.Sorted held forged)
    (hsize : s.terms.length < maxTermFlood)
    (hid : forged id = false) {input : TermInput} (hhonest : input.IsHonest held forged)
    (hclear : s.Clear forged input) :
    ((s.withoutForged forged).handle id input).1 = (s.handle id input).1.withoutForged forged ∧
      ((s.withoutForged forged).handle id input).2.filter TermEffect.isObserved =
        (s.handle id input).2.filter TermEffect.isObserved := by
  have hsame : ∀ {a : OwnerTerms × List TermEffect} {b : OwnerTerms} {effects : List TermEffect},
      a = (b, effects) →
      a.1 = b ∧ a.2.filter TermEffect.isObserved = effects.filter TermEffect.isObserved := by
    rintro _ _ _ rfl
    exact ⟨rfl, rfl⟩
  cases input with
  | message message => exact hsame (authorize_withoutForged h hs hsize hid hclear)
  | checkAnswered key answer =>
    exact hsame (checkAnswered_withoutForged h hs (hhonest.check key answer rfl))
  | watchAnswered key isEnding =>
    exact hsame (watchAnswered_withoutForged h (hhonest.watch key isEnding rfl))
  | takeOwn claim => exact hsame (takeOwn_withoutForged hsize hid (hclear.named claim.term rfl))
  | endOwn term => exact hsame (endOwn_withoutForged h (hclear.named term rfl))
  | dispose =>
    have haborts : ∀ terms : List KnownTerm,
        (terms.map fun entry => TermEffect.abort entry.key).filter TermEffect.isObserved = [] := by
      intro terms
      refine List.filter_eq_nil_iff.mpr fun effect heffect => ?_
      obtain ⟨entry, -, rfl⟩ := List.mem_map.mp heffect
      exact nofun
    refine ⟨rfl, ?_⟩
    simp only [handle, dispose, haborts]

/-- What a forged message can be taken for. -/
theorem forged_message {message : ProtocolMessage}
    (hforged : (TermInput.message message).IsForged held forged) :
    (∀ claim, message.claim? = some claim → ¬ held claim) ∧
    (∀ term, message.body = .ownerReleased term → ∀ claim, held claim →
      ¬ (claim.term = term ∧ claim.sender = message.sender)) ∧
    (message.body.isAboutDevice = true → ∀ claim, held claim → claim.sender ≠ message.sender) ∧
    message.body.answerTerm? = none ∧ message.body.isOfIssuer = false := by
  unfold TermInput.IsForged at hforged
  cases hbody : message.body
    <;> simp_all [ProtocolMessage.claim?, MessageBody.isAboutDevice, MessageBody.answerTerm?,
    MessageBody.isOfIssuer]

/-- A forged step leaves the other run's memory alone, and the host sees nothing of it. -/
theorem handle_forged (h : s.WellFormed next) (hs : s.Sorted held forged)
    (hsize : s.terms.length < maxTermFlood)
    (hid : forged id = true) {input : TermInput} (hforged : input.IsForged held forged) :
    (s.handle id input).1.withoutForged forged = s.withoutForged forged ∧
      (s.handle id input).2.filter TermEffect.isObserved = [] := by
  have hh : Handled s id input (s.handle id input).1 (s.handle id input).2 := handle_handled h
  generalize s.handle id input = handled at hh
  obtain ⟨s', effects⟩ := handled
  simp only at hh ⊢
  cases hh with
  | ignored => exact ⟨rfl, rfl⟩
  | applied message hb =>
    obtain ⟨hclaim, -, hdevice, hanswer, hissuer⟩ := forged_message hforged
    cases hb with
    | claim entry he hc hlive =>
      exact absurd (hs.honest entry he (hs.honest_of_live he hlive)) (hclaim _ hc)
    | device entry he hd hsender hlive =>
      exact absurd hsender (hdevice hd _ (hs.honest entry he (hs.honest_of_live he hlive)))
    | answer entry he ha => rw [hanswer] at ha; cases ha
    | issuer hi => rw [hissuer] at hi; cases hi
  | asked message claim hclaim hnew hdisposed =>
    have hfresh : KeyedList.lookup KnownTerm.term (checkedEntry id claim message).term
      s.terms = none := hnew
    rw [remember_of_room hsize, KeyedList.put_of_lookup_none hfresh]
    refine ⟨?_, rfl⟩
    have hnot : (fun e : KnownTerm => !forged e.key) (checkedEntry id claim message) = false := by
      simp [checkedEntry, newEntry, hid]
    simp only [withoutForged, List.filter_append, List.filter_cons, hnot]
    simp
  | kept message entry run he hc habout hof hroom =>
    obtain ⟨hclaim, hreleased, hdevice, -⟩ := forged_message hforged
    refine ⟨withoutForged_modify_forged (fun _ => rfl) ?_, rfl⟩
    by_contra hf
    have hheld := hs.honest entry he (by simpa using hf)
    cases run with
    | observe claim m => exact hclaim _ (by rw [← hof]; exact habout.2) hheld
    | heardReleased term sender =>
      exact hreleased term hof.1 _ hheld ⟨habout.1.symm, by rw [hof.2]; exact habout.2.symm⟩
    | authorize m =>
      obtain rfl : m = message := hof
      exact hdevice habout.1 _ hheld habout.2.symm
  | heard message entry hbody hsender he hlive =>
    exact absurd ⟨rfl, hsender.symm⟩
      ((forged_message hforged).2.1 _ hbody _ (hs.honest entry he (hs.honest_of_live he hlive)))
  | goodbye message entry hbody hsender he hlive =>
    exact absurd ⟨rfl, hsender.symm⟩
      ((forged_message hforged).2.1 _ hbody _ (hs.honest entry he (hs.honest_of_live he hlive)))
  | unknown entry he hc =>
    refine ⟨OwnerTerms.ext ?_ rfl rfl, rfl⟩
    simp only [withoutForged, OwnerTerms.forget, KeyedList.erase, List.filter_filter]
    refine List.filter_congr fun e hmem => ?_
    by_cases hterm : e.term = entry.term
    · have hf : forged e.key = true := by
        rw [h.terms.eq_of_mem hmem he hterm]
        exact hforged.1
      simp [hf]
    · simp [hterm]
  | free entry he hc => exact ⟨withoutForged_modify_forged (fun _ => rfl) hforged.1, rfl⟩
  | held entry he hc => exact absurd rfl hforged.2
  | ending | watched | took | endedOwn | disposed => exact hforged.elim

/-- Whatever an input does, forged entries stay unbelieved and honest ones about locks that are
held. -/
theorem handle_sorted (h : s.WellFormed next) (hs : s.Sorted held forged) {input : TermInput}
    (hhonest : forged id = false → input.IsHonest held forged ∧ s.Clear forged input)
    (hforged : forged id = true → input.IsForged held forged) :
    (s.handle id input).1.Sorted held forged := by
  have hentries : ∀ e' ∈ (s.handle id input).1.terms, (∃ e ∈ s.terms, Evolves input e e') ∨
      Brought id input e' :=
    fun e' he' => (handle_handled h).entries h he'
  have hbrought : ∀ claim, input.claim? = some claim → forged id = true → ¬ held claim := by
    intro claim hclaim hid
    cases input with
    | message message => exact (forged_message (hforged hid)).1 claim hclaim
    | takeOwn => exact (hforged hid).elim
    | checkAnswered | watchAnswered | endOwn | dispose => cases hclaim
  refine ⟨fun e' he' hf => ?_, fun e' he' hf => ?_, fun e' he' hf => ?_⟩
  · rcases hentries e' he' with ⟨e, he, hevolves⟩ | hnew
    · rw [hevolves.key] at hf
      have hrefused := hs.refused e he hf
      have hnotLive : e.phase ≠ .live := fun hlive => by
        rw [hs.honest_of_live he hlive] at hf
        cases hf
      have hcleared : ∀ {i : TermInput}, i = input → forged id = false → s.Clear forged i :=
        fun hi hid => hi ▸ (hhonest hid).2
      rcases hevolves.phase with hphase | hstep
      · rw [hphase]
        exact hrefused
      · generalize e'.phase = phase' at hstep ⊢
        cases hstep with
        | held hc hinput =>
          cases hid : forged id with
          | false =>
            rw [(hhonest hid).1.check e.key .held hinput] at hf
            cases hf
          | true =>
            subst hinput
            exact absurd rfl (hforged hid).2
        | free => exact Or.inr rfl
        | goodbye _ hlive => exact absurd hlive hnotLive
        | watched _ hlive => exact absurd hlive hnotLive
        | endedOwn hphase hinput =>
          cases hid : forged id with
          | false =>
            subst hinput
            rw [(hhonest hid).2.named e.term rfl e he rfl] at hf
            cases hf
          | true =>
            subst hinput
            exact (hforged hid).elim
    · cases hnew with
      | asked => exact Or.inl rfl
      | took => exact (hforged hf).elim
  · rcases hentries e' he' with ⟨e, he, hevolves⟩ | hnew
    · rw [hevolves.claim]
      exact hs.unheld e he (hevolves.key ▸ hf)
    · cases hnew with
      | asked message claim hclaim => exact hbrought claim hclaim hf
      | took => exact (hforged hf).elim
  · rcases hentries e' he' with ⟨e, he, hevolves⟩ | hnew
    · rw [hevolves.claim]
      exact hs.honest e he (hevolves.key ▸ hf)
    · cases hnew with
      | asked message claim hclaim => exact (hhonest hf).1.claim claim hclaim
      | took claim => exact (hhonest hf).1.claim claim rfl

theorem handle_roomy (h : s.WellFormed next) {named : List TermId} (hroom : s.Roomy named)
    {input : TermInput}
    (hnamed : ∀ claim, input.claim? = some claim → claim.term ∈ named) :
    (s.handle id input).1.Roomy named := by
  intro e' he'
  rcases (handle_handled h).entries h he' with ⟨e, he, hevolves⟩ | hnew
  · have hterm : e'.term = e.term := congrArg TermClaim.term hevolves.claim
    rw [hterm]
    exact hroom e he
  · cases hnew with
    | asked message claim hclaim => exact hnamed claim hclaim
    | took claim => exact hnamed claim rfl

/-! ### both runs -/

theorem observations_withoutForged {named : List TermId} (hfew : named.dedup.length < maxTermFlood)
    (inputs : List TermInput) (id : EntryId) (h : s.WellFormed id) (hs : s.Sorted held forged)
    (hroom : s.Roomy named)
    (hhonest : ∀ i input, inputs[i]? = some input → forged (id + i) = false →
      input.IsHonest held forged)
    (hforged : ∀ i input, inputs[i]? = some input → forged (id + i) = true →
      input.IsForged held forged)
    (hnamed : ∀ input ∈ inputs, ∀ claim, input.claim? = some claim → claim.term ∈ named)
    (hclear : s.AlwaysClear forged id inputs) :
    observations (fun _ => false) s id inputs = observations forged
    (s.withoutForged forged) id inputs := by
  induction inputs generalizing s id with
  | nil => rfl
  | cons input inputs ih =>
    have hsize := hroom.length_lt h.terms hfew
    have hhere := hhonest 0 input rfl
    have hthere := hforged 0 input rfl
    have hwf : (s.handle id input).1.WellFormed (id + 1) :=
      (handle_handled h).wellFormed h (Nat.le_refl _)
    have hs' : (s.handle id input).1.Sorted held forged :=
      handle_sorted h hs (fun hid => ⟨hhere hid, hclear.1 hid⟩) hthere
    have hrest := ih (id + 1) hwf hs' (handle_roomy h hroom (hnamed input List.mem_cons_self))
      (fun i input' hi hid =>
        hhonest (i + 1) input' hi (by rw [← hid, Nat.add_right_comm, Nat.add_assoc]))
      (fun i input' hi hid =>
        hforged (i + 1) input' hi (by rw [← hid, Nat.add_right_comm, Nat.add_assoc]))
      (fun input' hi => hnamed input' (List.mem_cons_of_mem _ hi)) hclear.2
    unfold observations
    cases hid : forged id with
    | false =>
      obtain ⟨hstate, heffects⟩ := handle_honest h hs hsize hid (hhere hid) (hclear.1 hid)
      simp only [Bool.false_eq_true, if_false, hstate, heffects, hrest]
      rfl
    | true =>
      obtain ⟨hstate, heffects⟩ := handle_forged h hs hsize hid (hthere hid)
      rw [hstate] at hrest
      have hcurrent : (s.handle id input).1.current = (s.withoutForged forged).current := by
        rw [← hstate]
        rfl
      simp only [Bool.false_eq_true, if_false, if_true, heffects, hrest, hcurrent, List.filter_nil]

/-- **Forged messages change nothing, as long as no honest step meets one of their entries.** -/
theorem forged_change_nothing {inputs : List TermInput} (hinputs : Insertion held forged inputs)
    (hclear : AlwaysClear forged .empty 0 inputs) :
    observations (fun _ => false) .empty 0 inputs = observations forged .empty 0 inputs := by
  have hsorted : empty.Sorted held forged := ⟨by simp [empty], by simp [empty], by simp [empty]⟩
  refine observations_withoutForged hinputs.few inputs 0 empty_wellFormed hsorted
      (by simp [Roomy, empty])
    (fun i input hi hid => hinputs.honest i input hi (by rwa [Nat.zero_add] at hid))
    (fun i input hi hid => hinputs.inserted i input hi (by rwa [Nat.zero_add] at hid))
    (fun input hinput claim hclaim =>
      List.mem_filterMap.mpr ⟨input, hinput, by rw [hclaim]; rfl⟩) hclear

/-! ### a forged claim that comes late, and one that comes first -/

/-- The one lock that is held: term 7 of tab 1. -/
def heldOfTab1 (claim : TermClaim) : Prop := claim = ⟨7, 1, .infinity⟩

/-- Tab 1 claims term 7 and is believed; then tab 2 claims the same term, and its check is never
answered. -/
def forgedLate : List TermInput :=
  [.message ⟨1, .all, .ownerClaimed 7 .infinity⟩, .checkAnswered 0 .held,
    .message ⟨2, .all, .ownerClaimed 7 .infinity⟩, .message ⟨1, .all, .status .open .infinity 7⟩]

theorem forged_change_nothing_forgedLate :
    observations (fun _ => false) .empty 0 forgedLate = observations
    (fun id => id = 2) .empty 0 forgedLate := by
  have hinputs : Insertion heldOfTab1 (fun id => id = 2) forgedLate := by
    refine ⟨fun id input hi hf => ?_, fun id input hi hf => ?_, by decide⟩
    · match id, hi with
      | 0, hi | 3, hi =>
        cases hi
        exact ⟨fun claim hc => (Option.some.inj hc).symm, nofun, nofun⟩
      | 1, hi =>
        cases hi
        exact ⟨nofun, fun key _ hc => by cases hc; rfl, nofun⟩
      | 2, _ => simp at hf
    · obtain rfl : id = 2 := by simpa using hf
      cases hi
      exact fun hheld => by simp [heldOfTab1] at hheld
  exact forged_change_nothing hinputs ⟨fun _ => .of_honest (by decide),
    fun _ => .of_honest (by decide), by simp,
    fun _ => .of_honest (by decide), trivial⟩

/-- Tab 2 claims term 7, which nobody holds for it, before tab 1's claim of the same term
arrives. -/
def forgedFirst : List TermInput :=
  [.message ⟨2, .all, .ownerClaimed 7 .infinity⟩, .message ⟨1, .all, .ownerClaimed 7 .infinity⟩,
    .checkAnswered 0 .free, .checkAnswered 1 .held]

theorem not_forged_change_nothing :
    ¬ ∀ (held : TermClaim → Prop) (forged : EntryId → Bool) (inputs : List TermInput),
      Insertion held forged inputs →
      observations (fun _ => false) .empty 0 inputs = observations forged .empty 0 inputs := by
  intro hall
  have hinputs : Insertion heldOfTab1 (fun id => id = 0 ∨ id = 2) forgedFirst := by
    refine ⟨fun id input hi hf => ?_, fun id input hi hf => ?_, by decide⟩
    · match id, hi with
      | 1, hi =>
        cases hi
        exact ⟨fun claim hc => (Option.some.inj hc).symm, nofun, nofun⟩
      | 3, hi =>
        cases hi
        exact ⟨nofun, fun key _ hc => by cases hc; rfl, nofun⟩
      | 0, _ | 2, _ => simp at hf
    · match id, hi with
      | 0, hi =>
        cases hi
        exact fun hheld => by simp [heldOfTab1] at hheld
      | 2, hi =>
        cases hi
        exact ⟨rfl, nofun⟩
      | 1, _ | 3, _ => simp at hf
  exact absurd (hall heldOfTab1 _ forgedFirst hinputs) (by decide)

end OwnerTerms

end SerialBroker
