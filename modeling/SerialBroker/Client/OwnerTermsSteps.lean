import SerialBroker.Client.OwnerTerms

/-!
# What one input does to the terms

The memory of terms is well formed between two inputs: no term and no entry occurs twice, at most
`maxTermFlood` are kept, the current term is live and nothing succeeded it, and every other live
term was succeeded. From there each method has a closed form, and an entry that is there after an
input is either new or the same entry in a phase its input allows.
-/

namespace SerialBroker

/-- What a claim or a status says about its term. -/
def ProtocolMessage.claim? (message : ProtocolMessage) : Option TermClaim :=
  match message.body with
  | .ownerClaimed term maxTabs | .status _ maxTabs term => some ⟨term, message.sender, maxTabs⟩
  | _ => none

/-- A message about the device, believed from whoever speaks for a live term. -/
def MessageBody.isAboutDevice : MessageBody → Bool
  | .dataReceived .. | .dataSent .. | .error _ => true
  | _ => false

namespace Waiting

/-- What a closure kept for an entry of this claim can be. -/
def IsAbout (claim : TermClaim) : Waiting → Prop
  | .observe c message => c = claim ∧ message.claim? = some claim
  | .heardReleased term sender => term = claim.term ∧ sender = claim.sender
  | .authorize message => message.body.isAboutDevice ∧ message.sender = claim.sender

/-- The closure that keeps this message. -/
def IsOf (message : ProtocolMessage) : Waiting → Prop
  | .observe _ m | .authorize m => m = message
  | .heardReleased term sender => message.body = .ownerReleased term ∧ message.sender = sender

/-- What the closure does once its term is current. -/
def applied : Waiting → List TermEffect
  | .observe _ message | .authorize message => [.apply message]
  | .heardReleased .. => []

def isGoodbye : Waiting → Bool
  | .heardReleased .. => true
  | _ => false

end Waiting

/-- What an entry is between two inputs. -/
structure KnownTerm.WellFormed (entry : KnownTerm) : Prop where
  checking : entry.phase = .checking →
    entry.isOwn = false ∧ entry.isSucceeded = false ∧ entry.isEnding = false ∧
      entry.hasHeardGoodbye = false
  waiting : entry.phase ≠ .checking → entry.waiting = []
  observes : entry.phase = .checking →
    ∃ message ws, entry.waiting = .observe entry.claim message :: ws
  about : ∀ run ∈ entry.waiting, run.IsAbout entry.claim

/-- What holds of the memory of terms at every moment; entries created from now on have identities
from `next`. -/
structure OwnerTerms.Consistent (s : OwnerTerms) (next : EntryId) : Prop where
  terms : KeyedList.Distinct KnownTerm.term s.terms
  keys : KeyedList.Distinct KnownTerm.key s.terms
  fresh : ∀ entry ∈ s.terms, entry.key < next
  entries : ∀ entry ∈ s.terms, entry.WellFormed
  current : ∀ term, s.current = some term →
    ∃ entry ∈ s.terms, entry.term = term ∧ entry.phase = .live ∧ entry.isSucceeded = false
  disposed : s.isDisposed = true → ∀ entry ∈ s.terms, entry.phase ≠ .checking

/-- Every live term is the current one, or one came after it. -/
def OwnerTerms.Led (s : OwnerTerms) : Prop :=
  ∀ entry ∈ s.terms, entry.phase = .live → s.current = some entry.term ∨ entry.isSucceeded = true

/-- What holds of the memory of terms between two inputs. -/
structure OwnerTerms.WellFormed (s : OwnerTerms) (next : EntryId) : Prop
      extends s.Consistent next where
  size : s.terms.length ≤ maxTermFlood
  led : s.Led

namespace OwnerTerms

variable {s s' : OwnerTerms} {next id key : EntryId} {entry : KnownTerm} {claim : TermClaim}
  {message : ProtocolMessage} {term : TermId} {sender : ClientId}

theorem empty_wellFormed : empty.WellFormed 0 where
  terms := List.nodup_nil
  keys := List.nodup_nil
  fresh := by simp [empty]
  entries := by simp [empty]
  current := by simp [empty]
  disposed := by simp [empty]
  size := Nat.zero_le _
  led := by simp [Led, empty]

theorem Consistent.mono {next' : EntryId} (h : s.Consistent next) (hle : next ≤ next') :
    s.Consistent next' :=
  { h with fresh := fun entry he => Nat.lt_of_lt_of_le (h.fresh entry he) hle }

/-! ### finding an entry -/

theorem Consistent.get?_iff (h : s.Consistent next) :
    s.get? term = some entry ↔ entry ∈ s.terms ∧ entry.term = term := h.terms.lookup_iff

theorem Consistent.entryOf?_iff (h : s.Consistent next) :
    s.entryOf? key = some entry ↔ entry ∈ s.terms ∧ entry.key = key := h.keys.lookup_iff

theorem get?_eq_none : s.get? term = none ↔ ∀ entry ∈ s.terms, entry.term ≠ term :=
  KeyedList.lookup_eq_none

theorem mem_of_get? (h : s.get? term = some entry) : entry ∈ s.terms ∧ entry.term = term :=
  ⟨KeyedList.mem_of_lookup h, KeyedList.key_of_lookup h⟩

theorem mem_of_entryOf? (h : s.entryOf? key = some entry) : entry ∈ s.terms ∧ entry.key = key :=
  ⟨KeyedList.mem_of_lookup h, KeyedList.key_of_lookup h⟩

/-! ### assigning to the fields of one entry -/

@[simp] theorem modify_current {f : KnownTerm → KnownTerm} :
    (s.modify key f).current = s.current := rfl

@[simp] theorem modify_isDisposed {f : KnownTerm → KnownTerm} :
    (s.modify key f).isDisposed = s.isDisposed := rfl

@[simp] theorem modify_length {f : KnownTerm → KnownTerm} :
    (s.modify key f).terms.length = s.terms.length :=
  KeyedList.length_adjust

theorem mem_modify {f : KnownTerm → KnownTerm} {e' : KnownTerm} :
    e' ∈ (s.modify key f).terms ↔ ∃ e ∈ s.terms, e' = if e.key = key then f e else e :=
  KeyedList.mem_adjust

theorem Consistent.mem_modify (h : s.Consistent next) (he : entry ∈ s.terms)
    {f : KnownTerm → KnownTerm}
    {e' : KnownTerm} :
    e' ∈ (s.modify entry.key f).terms ↔ e' = f entry ∨ (e' ∈ s.terms ∧ e'.key ≠ entry.key) := by
  rw [OwnerTerms.mem_modify]
  constructor
  · rintro ⟨e, hmem, rfl⟩
    split
    · next hk => exact Or.inl (by rw [h.keys.eq_of_mem hmem he hk])
    · next hk => exact Or.inr ⟨hmem, hk⟩
  · rintro (rfl | ⟨hmem, hk⟩)
    · exact ⟨entry, he, by rw [if_pos rfl]⟩
    · exact ⟨e', hmem, by rw [if_neg hk]⟩

/-- Assignments to an entry that leave a current term live and unsucceeded keep the memory
consistent. -/
theorem Consistent.modify (h : s.Consistent next) (he : entry ∈ s.terms) {f : KnownTerm → KnownTerm}
    (hkey : (f entry).key = entry.key) (hclaim : (f entry).claim = entry.claim)
    (hwf : (f entry).WellFormed)
    (hchecking : (f entry).phase = .checking → entry.phase = .checking)
    (hcurrent : s.current = some entry.term →
      (f entry).phase = .live ∧ (f entry).isSucceeded = false) :
    (s.modify entry.key f).Consistent next where
  terms := h.terms.adjust fun a ha hk => by
    rw [h.keys.eq_of_mem ha he hk, KnownTerm.term, hclaim]
  keys := h.keys.adjust fun a ha hk => by rw [h.keys.eq_of_mem ha he hk, hkey]
  fresh e' he' := by
    rcases (h.mem_modify he).mp he' with rfl | ⟨hmem, -⟩
    · rw [hkey]
      exact h.fresh entry he
    · exact h.fresh e' hmem
  entries e' he' := by
    rcases (h.mem_modify he).mp he' with rfl | ⟨hmem, -⟩
    · exact hwf
    · exact h.entries e' hmem
  current t ht := by
    obtain ⟨e, hmem, rfl, hlive, hfirst⟩ := h.current t ht
    by_cases hk : e.key = entry.key
    · obtain rfl := h.keys.eq_of_mem hmem he hk
      exact ⟨f e, (h.mem_modify he).mpr (Or.inl rfl), by rw [KnownTerm.term, hclaim], hcurrent ht⟩
    · exact ⟨e, (h.mem_modify he).mpr (Or.inr ⟨hmem, hk⟩), rfl, hlive, hfirst⟩
  disposed hd e' he' := by
    rcases (h.mem_modify he).mp he' with rfl | ⟨hmem, -⟩
    · exact fun hc => h.disposed hd entry he (hchecking hc)
    · exact h.disposed hd e' hmem

/-- Assignments that leave phase and succession alone keep it well formed. -/
theorem WellFormed.modify (h : s.WellFormed next) (he : entry ∈ s.terms) {f : KnownTerm → KnownTerm}
    (hkey : (f entry).key = entry.key) (hclaim : (f entry).claim = entry.claim)
    (hphase : (f entry).phase = entry.phase)
    (hsucceeded : (f entry).isSucceeded = entry.isSucceeded)
    (hwf : (f entry).WellFormed) : (s.modify entry.key f).WellFormed next where
  toConsistent := h.toConsistent.modify he hkey hclaim hwf (fun hc => hphase.symm.trans hc)
      fun hcur => by
    obtain ⟨e, hmem, hterm, hlive, hfirst⟩ := h.current _ hcur
    obtain rfl := h.terms.eq_of_mem hmem he hterm
    exact ⟨hphase.trans hlive, hsucceeded.trans hfirst⟩
  size := by
    rw [modify_length]
    exact h.size
  led e' he' hlive := by
    rcases (h.mem_modify he).mp he' with rfl | ⟨hmem, -⟩
    · rw [KnownTerm.term, hclaim, hsucceeded]
      exact h.led entry he (hphase.symm.trans hlive)
    · exact h.led e' hmem hlive

/-! ### forgetting -/

theorem mem_forget {e' : KnownTerm} :
    e' ∈ (s.forget entry).1.terms ↔ e' ∈ s.terms ∧ e'.term ≠ entry.term :=
  KeyedList.mem_erase

theorem Consistent.forget (h : s.Consistent next) (hcurrent : s.current ≠ some entry.term) :
    (s.forget entry).1.Consistent next where
  terms := h.terms.erase
  keys := h.keys.erase
  fresh e he := h.fresh e (mem_forget.mp he).1
  entries e he := h.entries e (mem_forget.mp he).1
  current t ht := by
    obtain ⟨e, hmem, rfl, hlive⟩ := h.current t ht
    refine ⟨e, mem_forget.mpr ⟨hmem, fun hterm => hcurrent ?_⟩, rfl, hlive⟩
    rw [← hterm]
    exact ht
  disposed hd e he := h.disposed hd e (mem_forget.mp he).1

theorem Consistent.not_current (h : s.Consistent next) (he : entry ∈ s.terms)
    (hphase : entry.phase ≠ .live) :
    s.current ≠ some entry.term := by
  intro hcur
  obtain ⟨e, hmem, hterm, hlive, -⟩ := h.current _ hcur
  rw [h.terms.eq_of_mem hmem he hterm] at hlive
  exact hphase hlive

theorem Consistent.oldest_mem (h : s.Consistent next) (ho : s.oldest = some entry) :
    entry ∈ s.terms ∧ s.current ≠ some entry.term := by
  simp only [oldest, Option.or_eq_some_iff] at ho
  rcases ho with ho | ⟨-, ho | ⟨-, ho⟩⟩
  · have hmem := List.mem_of_find?_eq_some ho
    refine ⟨hmem, h.not_current hmem fun hlive => ?_⟩
    simpa [hlive] using List.find?_some ho
  · have hmem := List.mem_of_find?_eq_some ho
    refine ⟨hmem, h.not_current hmem fun hlive => ?_⟩
    simpa [hlive] using List.find?_some ho
  · have hne := List.find?_some ho
    simp only [decide_eq_true_eq] at hne
    exact ⟨List.mem_of_find?_eq_some ho, Ne.symm hne⟩

/-- Of two terms one is not the current one. -/
theorem exists_not_current {terms : List KnownTerm} (current : Option TermId)
    (hterms : KeyedList.Distinct KnownTerm.term terms) (hlen : 2 ≤ terms.length) :
    ∃ e, terms.find? (fun known => some known.term ≠ current) = some e := by
  rw [← Option.isSome_iff_exists, List.find?_isSome]
  match terms, hlen with
  | a :: b :: _, _ =>
    have hab : a.term ≠ b.term := by
      intro hab
      exact (List.nodup_cons.mp hterms).1 (by rw [hab]; exact List.mem_cons_self)
    by_cases ha : some a.term = current
    · refine ⟨b, by simp, ?_⟩
      simp only [← ha, decide_eq_true_eq]
      exact fun hb => hab (Option.some.inj hb).symm
    · exact ⟨a, by simp, by simpa using ha⟩

theorem Consistent.exists_oldest (h : s.Consistent next) (hlen : 2 ≤ s.terms.length) :
    ∃ e, s.oldest = some e := by
  cases ho : s.oldest with
  | some e => exact ⟨e, rfl⟩
  | none =>
    obtain ⟨e, he⟩ := exists_not_current s.current h.terms hlen
    have hnone := (Option.or_eq_none_iff.mp (Option.or_eq_none_iff.mp ho).2).2
    rw [hnone] at he
    cases he

theorem shrink_of_fits (hsize : s.terms.length ≤ maxTermFlood) (rounds : Nat) :
    s.shrink rounds = (s, []) := by
  cases rounds with
  | zero => rfl
  | succ rounds => rw [shrink, if_pos hsize]

/-- What a full memory gives up is among what it kept, and never the current term. -/
structure Shrunk (s s' : OwnerTerms) (effects : List TermEffect) : Prop where
  sub : ∀ e ∈ s'.terms, e ∈ s.terms
  current : s'.current = s.current
  isDisposed : s'.isDisposed = s.isDisposed
  effects : ∀ effect ∈ effects, ∃ k, effect = .abort k ∧ ∀ e ∈ s'.terms, e.key ≠ k

theorem shrunk_shrink (h : s.Consistent next) (rounds : Nat) :
    Shrunk s (s.shrink rounds).1 (s.shrink rounds).2 ∧ (s.shrink rounds).1.Consistent next ∧
      (s.terms.length ≤ maxTermFlood + rounds →
        (s.shrink rounds).1.terms.length ≤ maxTermFlood) := by
  have hnothing : Shrunk s s [] := ⟨fun e he => he, rfl, rfl, by simp⟩
  induction rounds generalizing s with
  | zero => exact ⟨hnothing, h, fun hlen => hlen⟩
  | succ rounds ih =>
    unfold shrink
    split
    · next hlen => exact ⟨hnothing, h, fun _ => hlen⟩
    · next hlen =>
      obtain ⟨e, ho⟩ := h.exists_oldest (by unfold maxTermFlood at hlen; omega)
      obtain ⟨hmem, hcur⟩ := h.oldest_mem ho
      simp only [ho]
      obtain ⟨hrest, hwf, hsize⟩ := ih (h.forget hcur) ⟨fun e he => he, rfl, rfl, by simp⟩
      refine ⟨⟨fun a ha => (mem_forget.mp (hrest.sub a ha)).1, hrest.current, hrest.isDisposed, ?_⟩,
        hwf, fun hle => hsize ?_⟩
      · intro effect heffect
        rcases List.mem_append.mp heffect with hin | hin
        · refine ⟨e.key, by simpa [OwnerTerms.forget] using hin, fun a ha hk => ?_⟩
          obtain ⟨ha, hterm⟩ := mem_forget.mp (hrest.sub a ha)
          exact hterm (by rw [h.keys.eq_of_mem ha hmem hk])
        · exact hrest.effects effect hin
      · have hlt : (s.forget e).1.terms.length < s.terms.length :=
          KeyedList.length_erase_lt hmem rfl
        omega

/-- A new entry is remembered in the place of one under the same term, at the cost of older ones. -/
theorem Consistent.remember (h : s.Consistent next) (entry : KnownTerm) (hfresh : next ≤ entry.key)
    (hwf : entry.WellFormed)
    (hcurrent : s.current = some entry.term → entry.phase = .live ∧ entry.isSucceeded = false)
    (hdisposed : s.isDisposed = true → entry.phase ≠ .checking) :
    (s.remember entry).1.Consistent (entry.key + 1) ∧
      (s.remember entry).1.terms.length ≤ maxTermFlood ∧
      Shrunk { s with terms := KeyedList.put KnownTerm.term entry s.terms } (s.remember entry).1
      (s.remember entry).2 := by
  have hput : Consistent
      { s with terms := KeyedList.put KnownTerm.term entry s.terms } (entry.key + 1) :=
    { terms := h.terms.put_self
      keys := h.keys.put fun e he => Nat.ne_of_lt (Nat.lt_of_lt_of_le (h.fresh e he) hfresh)
      fresh := fun e he => by
        rcases KeyedList.mem_of_mem_put he with rfl | he
        · exact Nat.lt_succ_self _
        · exact Nat.lt_succ_of_lt (Nat.lt_of_lt_of_le (h.fresh e he) hfresh)
      entries := fun e he => by
        rcases KeyedList.mem_of_mem_put he with rfl | he
        · exact hwf
        · exact h.entries e he
      current := fun t ht => by
        by_cases hterm : t = entry.term
        · subst hterm
          exact ⟨entry, KeyedList.mem_put_self, rfl, hcurrent ht⟩
        · obtain ⟨e, he, rfl, hlive⟩ := h.current t ht
          exact ⟨e, KeyedList.mem_put_of_ne he hterm, rfl, hlive⟩
      disposed := fun hd e he => by
        rcases KeyedList.mem_of_mem_put he with rfl | he
        · exact hdisposed hd
        · exact h.disposed hd e he }
  obtain ⟨hshrunk, hcons, hlen⟩ :=
    shrunk_shrink hput (KeyedList.put KnownTerm.term entry s.terms).length
  exact ⟨hcons, hlen (Nat.le_add_left _ _), hshrunk⟩

theorem mem_of_mem_shrink {rounds : Nat} {e : KnownTerm} (he : e ∈ (s.shrink rounds).1.terms) :
    e ∈ s.terms := by
  induction rounds generalizing s with
  | zero => exact he
  | succ rounds ih =>
    unfold shrink at he
    split at he
    · exact he
    · split at he
      · exact he
      · exact (mem_forget.mp (ih he)).1

theorem mem_of_mem_remember {e : KnownTerm} (he : e ∈ (s.remember entry).1.terms) :
    e = entry ∨ e ∈ s.terms :=
  KeyedList.mem_of_mem_put (mem_of_mem_shrink he)

theorem mem_remember_of_shrunk (h : s.Consistent next)
    (hs : Shrunk { s with
    terms := KeyedList.put KnownTerm.term entry s.terms } (s.remember entry).1 (s.remember entry).2)
    {e : KnownTerm} (he : e ∈ (s.remember entry).1.terms) : e = entry ∨
      (e ∈ s.terms ∧ e.term ≠ entry.term) :=
  h.terms.mem_put.mp (hs.sub e he)

/-- A live entry is not what its own arrival makes the tab forget. -/
theorem Consistent.mem_remember_self (h : s.Consistent next) (entry : KnownTerm)
    (hsize : s.terms.length ≤ maxTermFlood)
    (hlive : entry.phase = .live) : entry ∈ (s.remember entry).1.terms := by
  unfold OwnerTerms.remember
  by_cases hnew : ∀ e ∈ s.terms, e.term ≠ entry.term
  · rw [KeyedList.put_of_lookup_none (KeyedList.lookup_eq_none.mpr hnew)]
    simp only [List.length_append, List.length_singleton, shrink]
    split
    · simp
    · next hfull =>
      have hlen : s.terms.length = maxTermFlood := by omega
      obtain ⟨o, ho⟩ := exists_not_current s.current h.terms (by rw [hlen]; decide)
      have hne : ∀ o, oldest { s with terms := s.terms ++ [entry] } = some o → o ∈ s.terms := by
        intro o' ho'
        simp only [oldest, List.find?_append, ho, Option.some_or, Option.or_eq_some_iff] at ho'
        rcases ho' with (h1 | ⟨-, h1⟩) | ⟨-, (h1 | ⟨-, h1⟩) | ⟨-, h1⟩⟩
        · exact List.mem_of_find?_eq_some h1
        · simp [hlive] at h1
        · exact List.mem_of_find?_eq_some h1
        · simp [hlive] at h1
        · cases h1
          exact List.mem_of_find?_eq_some ho
      cases hold : oldest { s with terms := s.terms ++ [entry] } with
      | none => simp
      | some o' =>
        have hmem := hne o' hold
        have hlt : (KeyedList.erase KnownTerm.term o'.term (s.terms ++ [entry])).length <
            (s.terms ++ [entry]).length :=
          KeyedList.length_erase_lt (List.mem_append_left _ hmem) rfl
        rw [List.length_append, List.length_singleton, hlen] at hlt
        have hkept : entry ∈ KeyedList.erase KnownTerm.term o'.term (s.terms ++ [entry]) :=
          KeyedList.mem_erase.mpr ⟨by simp, Ne.symm (hnew o' hmem)⟩
        simp only [shrink_of_fits (s := (OwnerTerms.forget { s with
            terms := s.terms ++ [entry] } o').1)
          (Nat.le_of_lt_succ hlt)]
        exact hkept
  · push Not at hnew
    obtain ⟨e, he, hterm⟩ := hnew
    have hlen := KeyedList.length_put_of_mem (a := entry) he hterm
    rw [shrink_of_fits (s := { s with terms := KeyedList.put KnownTerm.term entry s.terms })
      (hlen ▸ hsize)]
    exact KeyedList.mem_put_self

/-! ### making a term current, and ending one -/

/-- The entry as it is once `term` has become current after `previous`. -/
def succeededBy (previous : Option TermId) (term : TermId) (e : KnownTerm) : KnownTerm :=
  if previous = some e.term ∧ e.term ≠ term then { e with isSucceeded := true } else e

@[simp] theorem succeededBy_key {previous : Option TermId} {e : KnownTerm} :
    (succeededBy previous term e).key = e.key := by
  unfold succeededBy
  split <;> rfl

@[simp] theorem succeededBy_claim {previous : Option TermId} {e : KnownTerm} :
    (succeededBy previous term e).claim = e.claim := by
  unfold succeededBy
  split <;> rfl

@[simp] theorem succeededBy_term {previous : Option TermId} {e : KnownTerm} :
    (succeededBy previous term e).term = e.term := by
  unfold succeededBy
  split <;> rfl

@[simp] theorem succeededBy_phase {previous : Option TermId} {e : KnownTerm} :
    (succeededBy previous term e).phase = e.phase := by
  unfold succeededBy
  split <;> rfl

theorem succeededBy_of_ne {previous : Option TermId} {e : KnownTerm}
    (hne : previous ≠ some e.term) :
    succeededBy previous term e = e := if_neg fun h => hne h.1

theorem succeededBy_self {previous : Option TermId} {e : KnownTerm} (hterm : e.term = term) :
    succeededBy previous term e = e := if_neg fun h => h.2 hterm

theorem makeCurrent_current : (s.makeCurrent entry).current = some entry.term := by
  unfold makeCurrent
  split
  · assumption
  · rfl

theorem makeCurrent_isDisposed : (s.makeCurrent entry).isDisposed = s.isDisposed := by
  unfold makeCurrent
  split <;> rfl

theorem makeCurrent_of_current (hcur : s.current = some entry.term) : s.makeCurrent entry = s :=
  if_pos hcur

theorem makeCurrent_terms :
    (s.makeCurrent entry).terms = s.terms.map (succeededBy s.current entry.term) := by
  unfold makeCurrent
  split
  · next hcur =>
    have hsame : ∀ e ∈ s.terms, succeededBy s.current entry.term e = e := by
      intro e _
      refine if_neg fun h => h.2 ?_
      rw [hcur] at h
      exact (Option.some.inj h.1).symm
    rw [List.map_congr_left hsame, List.map_id']
  · next hcur =>
    cases hprev : s.current with
    | none =>
      have hsame : ∀ e ∈ s.terms, succeededBy none entry.term e = e :=
        fun e _ => succeededBy_of_ne (Option.some_ne_none e.term).symm
      simp only
      rw [List.map_congr_left hsame, List.map_id']
    | some previous =>
      refine List.map_congr_left fun e _ => ?_
      have hne : previous ≠ entry.term := fun heq => hcur (by rw [hprev, heq])
      by_cases hterm : e.term = previous
      · simp only [succeededBy, hterm, if_true, true_and, ne_eq, hne, not_false_eq_true]
      · simp only [succeededBy, hterm, if_false, Option.some.injEq, Ne.symm hterm, false_and]

theorem mem_makeCurrent {e' : KnownTerm} :
    e' ∈ (s.makeCurrent entry).terms ↔ ∃ e ∈ s.terms, succeededBy s.current entry.term e = e' := by
  rw [makeCurrent_terms, List.mem_map]

theorem Consistent.makeCurrent (h : s.Consistent next) (he : entry ∈ s.terms)
    (hlive : entry.phase = .live)
    (hfirst : entry.isSucceeded = false) : (s.makeCurrent entry).Consistent next where
  terms := by
    have hsame : (s.terms.map (succeededBy s.current entry.term)).map KnownTerm.term = s.terms.map
        KnownTerm.term := by
      rw [List.map_map]
      exact List.map_congr_left fun e _ => succeededBy_term
    rw [makeCurrent_terms, KeyedList.Distinct, hsame]
    exact h.terms
  keys := by
    have hsame : (s.terms.map (succeededBy s.current entry.term)).map KnownTerm.key = s.terms.map
        KnownTerm.key := by
      rw [List.map_map]
      exact List.map_congr_left fun e _ => succeededBy_key
    rw [makeCurrent_terms, KeyedList.Distinct, hsame]
    exact h.keys
  fresh e' he' := by
    obtain ⟨e, hmem, rfl⟩ := mem_makeCurrent.mp he'
    rw [succeededBy_key]
    exact h.fresh e hmem
  entries e' he' := by
    obtain ⟨e, hmem, rfl⟩ := mem_makeCurrent.mp he'
    have hwf := h.entries e hmem
    unfold succeededBy
    split
    · next hprev =>
      have hnot : e.phase ≠ .checking := fun hc => h.not_current hmem (by rw [hc]; decide) hprev.1
      exact ⟨fun hc => absurd hc hnot, hwf.waiting, fun hc => absurd hc hnot, hwf.about⟩
    · exact hwf
  current t ht := by
    rw [makeCurrent_current] at ht
    refine ⟨entry, mem_makeCurrent.mpr ⟨entry, he, succeededBy_self rfl⟩, Option.some.inj ht,
      hlive, hfirst⟩
  disposed hd e' he' := by
    rw [makeCurrent_isDisposed] at hd
    obtain ⟨e, hmem, rfl⟩ := mem_makeCurrent.mp he'
    rw [succeededBy_phase]
    exact h.disposed hd e hmem

/-- Making a live term current leads the live terms, whether or not that one was led before. -/
theorem makeCurrent_led (hled : ∀ e ∈ s.terms, e.phase = .live →
      e.term = entry.term ∨ s.current = some e.term ∨ e.isSucceeded = true) :
    (s.makeCurrent entry).Led := by
  intro e' he' hlive
  obtain ⟨e, hmem, rfl⟩ := mem_makeCurrent.mp he'
  rw [succeededBy_phase] at hlive
  rw [makeCurrent_current, succeededBy_term]
  by_cases hterm : e.term = entry.term
  · exact Or.inl (by rw [← hterm])
  · right
    unfold succeededBy
    split
    · rfl
    · next hprev =>
      rcases hled e hmem hlive with h | h | h
      · exact absurd h hterm
      · exact absurd ⟨h, hterm⟩ hprev
      · exact h

/-- The entry once it is over. -/
def finished (e : KnownTerm) : KnownTerm := { e with phase := .ended, waiting := [] }

theorem endTerm_eq (hphase : entry.phase ≠ .ended) :
    s.endTerm entry = ({ s.modify entry.key finished with
        current := if s.current = some entry.term then none else s.current },
      [.abort entry.key, .ended entry.key entry.term (s.current = some entry.term)]) := by
  rw [endTerm, if_neg hphase]
  simp only [modify_current]
  rfl

theorem WellFormed.endTerm (h : s.WellFormed next) (he : entry ∈ s.terms)
    (hphase : entry.phase ≠ .ended) :
    (s.endTerm entry).1.WellFormed next := by
  have hmem : ∀ e', e' ∈ (s.endTerm entry).1.terms ↔
      e' = finished entry ∨ (e' ∈ s.terms ∧ e'.key ≠ entry.key) := by
    intro e'
    rw [endTerm_eq hphase]
    exact h.mem_modify he
  have hcurrent : (s.endTerm entry).1.current =
    if s.current = some entry.term then none else s.current := by
    rw [endTerm_eq hphase]
  have hkept : ∀ t, (s.endTerm entry).1.current = some t → s.current = some t ∧ t ≠ entry.term := by
    intro t ht
    rw [hcurrent] at ht
    split at ht
    · cases ht
    · next hne => exact ⟨ht, fun heq => hne (heq ▸ ht)⟩
  have hdistinct : KeyedList.Distinct KnownTerm.term (s.endTerm entry).1.terms ∧
      KeyedList.Distinct KnownTerm.key (s.endTerm entry).1.terms := by
    rw [endTerm_eq hphase]
    exact ⟨h.terms.adjust fun a _ _ => rfl, h.keys.adjust fun a _ _ => rfl⟩
  refine ⟨⟨hdistinct.1, hdistinct.2, ?_, ?_, ?_, ?_⟩, ?_, ?_⟩
  · intro e' he'
    rcases (hmem e').mp he' with rfl | ⟨he', -⟩
    · exact h.fresh entry he
    · exact h.fresh e' he'
  · intro e' he'
    rcases (hmem e').mp he' with rfl | ⟨he', -⟩
    · exact ⟨nofun, fun _ => rfl, nofun, by simp [finished]⟩
    · exact h.entries e' he'
  · intro t ht
    obtain ⟨hcur, hne⟩ := hkept t ht
    obtain ⟨e, hin, rfl, hlive⟩ := h.current t hcur
    exact ⟨e, (hmem e).mpr (Or.inr ⟨hin, fun hk => hne (by rw [h.keys.eq_of_mem hin he hk])⟩),
      rfl, hlive⟩
  · intro hd e' he'
    rw [endTerm_eq hphase] at hd
    rcases (hmem e').mp he' with rfl | ⟨he', -⟩
    · exact nofun
    · exact h.disposed hd e' he'
  · rw [endTerm_eq hphase]
    exact le_of_eq_of_le modify_length h.size
  · intro e' he' hlive
    rcases (hmem e').mp he' with rfl | ⟨he', hk⟩
    · cases hlive
    · rw [hcurrent]
      refine (h.led e' he' hlive).imp_left fun hcur => ?_
      rw [if_neg, hcur]
      rw [hcur]
      exact fun hterm => hk (by rw [h.terms.eq_of_mem he' he (Option.some.inj hterm)])

/-! ### a term found held -/

/-- The entry once its lock was found held. -/
def held (e : KnownTerm) : KnownTerm := { e with phase := .live, waiting := [] }

/-- The entry once its holder's goodbye may have arrived. -/
def hear (goodbye : Bool) (e : KnownTerm) : KnownTerm :=
  { e with hasHeardGoodbye := e.hasHeardGoodbye || goodbye }

theorem modify_hear_false : s.modify key (hear false) = s := by
  have hsame : ∀ e ∈ s.terms, (if e.key = key then hear false e else e) = e := by
    intro e _
    simp [hear]
  simp only [OwnerTerms.modify, KeyedList.adjust, List.map_congr_left hsame, List.map_id']

theorem modify_hear_true :
    (s.modify key fun known => { known with hasHeardGoodbye := true }) = s.modify key
    (hear true) := by
  have hsame : (fun known : KnownTerm => { known with hasHeardGoodbye := true }) = hear true :=
    funext fun e => by simp [hear]
  rw [hsame]

/-- The terms once the entry's lock was found held and everything that waited for it was run. -/
def believed (s : OwnerTerms) (entry : KnownTerm) : OwnerTerms :=
  ((s.modify entry.key held).makeCurrent (held entry)).modify entry.key
    (hear (entry.waiting.any Waiting.isGoodbye))

/-- A closure run while its term is live and current leaves the terms as they are, a goodbye
apart. -/
theorem runWaiting_current (h : s.Consistent next) (he : entry ∈ s.terms)
    (hlive : entry.phase = .live)
    (hown : entry.isOwn = false) (hending : entry.isEnding = false)
    (hfirst : entry.isSucceeded = false)
    (hcur : s.current = some entry.term) (hdisposed : s.isDisposed = false) {run : Waiting}
    (hrun : run.IsAbout entry.claim) :
    s.runWaiting id run = (s.modify entry.key (hear run.isGoodbye), run.applied) := by
  have hget := h.get?_iff.mpr ⟨he, rfl⟩
  cases run with
  | observe claim message =>
    obtain ⟨rfl, -⟩ := hrun
    simp only [runWaiting, observe, hdisposed, hget, hlive, hfirst, makeCurrent_of_current hcur,
      Waiting.isGoodbye,
      modify_hear_false, Waiting.applied]
    simp
  | heardReleased term sender =>
    obtain ⟨rfl, rfl⟩ := hrun
    simp only [runWaiting, heardReleased, hget, hlive, hown, hending, Waiting.isGoodbye,
      Waiting.applied,
      modify_hear_true]
    simp
  | authorize message =>
    obtain ⟨hdevice, hsender⟩ := hrun
    have hspeaks : s.speaksForLiveTerm message.sender = true :=
      List.any_eq_true.mpr ⟨entry, he, by simp [hsender, hlive]⟩
    simp only [runWaiting, authorize, hdisposed, Waiting.isGoodbye, modify_hear_false,
      Waiting.applied]
    cases hbody : message.body <;> simp [hbody, MessageBody.isAboutDevice] at hdevice
      <;> simp [hspeaks]

theorem runAll_current (id : EntryId) (h : s.Consistent next) (he : entry ∈ s.terms)
    (hlive : entry.phase = .live)
    (hown : entry.isOwn = false) (hending : entry.isEnding = false)
    (hfirst : entry.isSucceeded = false)
    (hcur : s.current = some entry.term) (hdisposed : s.isDisposed = false) (runs : List Waiting)
    (hruns : ∀ run ∈ runs, run.IsAbout entry.claim) :
    s.runAll id runs = (s.modify entry.key (hear (runs.any Waiting.isGoodbye)),
      runs.flatMap Waiting.applied) := by
  induction runs generalizing s entry with
  | nil => rw [runAll, List.any_nil, modify_hear_false, List.flatMap_nil]
  | cons run runs ih =>
    have hwf := h.entries entry he
    have hheard : (s.modify entry.key (hear run.isGoodbye)).Consistent next :=
      h.modify he rfl rfl ⟨fun hc => absurd (hlive.symm.trans hc) nofun, hwf.waiting, hwf.observes,
          hwf.about⟩ (fun hc => hc)
        fun _ => ⟨hlive, hfirst⟩
    have hmem : hear run.isGoodbye entry ∈ (s.modify entry.key (hear run.isGoodbye)).terms :=
      (h.mem_modify he).mpr (Or.inl rfl)
    rw [runAll, runWaiting_current h he hlive hown hending hfirst hcur hdisposed
      (hruns run List.mem_cons_self)]
    simp only
    rw [ih hheard hmem hlive hown hending hfirst hcur hdisposed fun r hr =>
      hruns r (List.mem_cons_of_mem _ hr)]
    refine Prod.ext ?_ rfl
    simp only [OwnerTerms.modify, KeyedList.adjust, List.map_map]
    congr 1
    refine List.map_congr_left fun e _ => ?_
    by_cases hk : e.key = entry.key
    · simp [hk, hear, Bool.or_assoc]
    · simp [hk, hear]

theorem Consistent.heldEntry (h : s.Consistent next) (he : entry ∈ s.terms)
    (hc : entry.phase = .checking) :
    (s.modify entry.key held).Consistent next :=
  h.modify he rfl rfl ⟨nofun, fun _ => rfl, nofun, by simp [held]⟩ nofun fun hcur =>
    absurd hcur (h.not_current he (by rw [hc]; exact nofun))

theorem checkAnswered_held (h : s.WellFormed next) (he : entry ∈ s.terms)
    (hc : entry.phase = .checking) :
    s.checkAnswered id entry.key .held =
      (s.believed entry, .watch entry.key entry.claim ::
        entry.waiting.flatMap Waiting.applied) := by
  have hwf := h.entries entry he
  obtain ⟨hown, hfirst, hending, -⟩ := hwf.checking hc
  obtain ⟨message, runs, hwaiting⟩ := hwf.observes hc
  have hdisposed : s.isDisposed = false := by
    by_contra hd
    exact h.disposed (by simpa using hd) entry he hc
  have hheld := h.toConsistent.heldEntry he hc
  have hmem : held entry ∈ (s.modify entry.key held).terms := (h.mem_modify he).mpr (Or.inl rfl)
  have hget := hheld.get?_iff.mpr ⟨hmem, rfl⟩
  have hmade := hheld.makeCurrent hmem rfl hfirst
  have hmem' : held entry ∈ ((s.modify entry.key held).makeCurrent (held entry)).terms :=
    mem_makeCurrent.mpr ⟨held entry, hmem, succeededBy_self rfl⟩
  have hrest := runAll_current id hmade hmem' rfl hown hending hfirst makeCurrent_current
    (makeCurrent_isDisposed.trans hdisposed) runs
    fun run hrun => hwf.about run (hwaiting ▸ List.mem_cons_of_mem _ hrun)
  have hobserve : (s.modify entry.key held).observe id entry.claim message =
      ((s.modify entry.key held).makeCurrent (held entry), [.apply message]) := by
    have hget' : (s.modify entry.key held).get? entry.claim.term = some (held entry) := hget
    simp only [observe, modify_isDisposed, hdisposed, hget']
    simp [held, hfirst]
  rw [checkAnswered, h.entryOf?_iff.mpr ⟨he, rfl⟩]
  simp only [hc, ne_eq, not_true_eq_false, if_false]
  change ((OwnerTerms.runAll (s.modify entry.key held) id entry.waiting).1,
    _ :: (OwnerTerms.runAll (s.modify entry.key held) id entry.waiting).2) = _
  simp only [hwaiting, runAll, runWaiting, hobserve]
  rw [hrest, believed, hwaiting]
  rfl

theorem WellFormed.believed (h : s.WellFormed next) (he : entry ∈ s.terms)
    (hc : entry.phase = .checking) :
    (s.believed entry).WellFormed next := by
  have hwf := h.entries entry he
  obtain ⟨hown, hfirst, hending, -⟩ := hwf.checking hc
  have hheld := h.toConsistent.heldEntry he hc
  have hmem : held entry ∈ (s.modify entry.key held).terms := (h.mem_modify he).mpr (Or.inl rfl)
  have hmem' : held entry ∈ ((s.modify entry.key held).makeCurrent (held entry)).terms :=
    mem_makeCurrent.mpr ⟨held entry, hmem, succeededBy_self rfl⟩
  have hmade : ((s.modify entry.key held).makeCurrent (held entry)).WellFormed next := by
    refine ⟨hheld.makeCurrent hmem rfl hfirst, ?_, makeCurrent_led fun e he' hlive => ?_⟩
    · rw [makeCurrent_terms, List.length_map, modify_length]
      exact h.size
    · rcases (h.mem_modify he).mp he' with rfl | ⟨he', -⟩
      · exact Or.inl rfl
      · exact Or.inr (h.led e he' hlive)
  exact hmade.modify hmem' rfl rfl rfl rfl ⟨nofun, fun _ => rfl, nofun, by simp [hear, held]⟩

end OwnerTerms

end SerialBroker
