import Mathlib.Data.List.Flatten
import SerialBroker.Client.OwnerTermsHandled
import SerialBroker.Lib.TransitionSystem

/-!
# One sender's messages through the checks of its terms

A tab that hears one honest sender: its messages in the order it sent them, term after term, and the
answers of the lock manager in any order. `Hearing` records what arrived and in which term it was
sent, what was applied, and which terms a check found held. Data and errors name no term;
`authorize` attaches them to a term of their sender by its phase. Where that is the term they were
sent in, and the checks are answered in the order of the terms, what is applied is what arrived, in
its order, and nothing of a held term is missing.
-/

namespace SerialBroker

/-- What a tab heard from one sender, and what it made of it. -/
structure Hearing where
  terms : OwnerTerms
  nextKey : EntryId
  /-- The terms the sender has claimed, in order. -/
  claims : List TermClaim
  arrived : List (TermClaim × ProtocolMessage)
  applied : List ProtocolMessage
  foundHeld : List TermClaim
  deriving DecidableEq

/-- What reaches the tab: a message, with the claim of the term it was sent in, or an answer of the
lock manager. -/
inductive HearingEvent
  | arrives (claim : TermClaim) (message : ProtocolMessage)
  | checkAnswered (key : EntryId) (answer : CheckAnswer)
  | watchAnswered (key : EntryId) (isEnding : Bool)
  deriving DecidableEq

/-- The messages among the effects that were applied. -/
def appliedMessages (effects : List TermEffect) : List ProtocolMessage :=
  effects.filterMap fun
    | .apply message => some message
    | .check .. | .watch .. | .abort _ | .ended .. => none

/-- A claim or a status in the name of the claim, the goodbye of its term, or something about the
device. -/
def ProtocolMessage.isSaidIn (message : ProtocolMessage) (claim : TermClaim) : Bool :=
  match message.claim? with
  | some named => named = claim
  | none => message.body.isAboutDevice || message.body = .ownerReleased claim.term

namespace Hearing

def init : Hearing := ⟨.empty, 0, [], [], [], []⟩

/-- An honest sender speaks in its own name and in the term it holds; the first word of a term is
its claim. -/
def Honest (sender : ClientId) (h : Hearing) (claim : TermClaim) (message : ProtocolMessage) :
    Prop :=
  message.sender = sender ∧ claim.sender = sender ∧ message.isSaidIn claim = true ∧
    (h.claims.getLast? = some claim ∨
      (message.body = .ownerClaimed claim.term claim.maxTabs ∧
        claim.term ∉ h.claims.map TermClaim.term))

instance {sender : ClientId} {h : Hearing} {claim : TermClaim} {message : ProtocolMessage} :
    Decidable (h.Honest sender claim message) := by
  unfold Honest
  infer_instance

/-- The record of a message that arrived. -/
def hear (h : Hearing) (claim : TermClaim) (message : ProtocolMessage) : Hearing :=
  { h with
    claims := if h.claims.getLast? = some claim then h.claims else h.claims ++ [claim]
    arrived := h.arrived ++ [(claim, message)] }

/-- The terms handle an input. -/
def perform (h : Hearing) (input : TermInput) : Hearing :=
  let handled := h.terms.handle h.nextKey input
  { h with
    terms := handled.1
    nextKey := h.nextKey + 1
    applied := h.applied ++ appliedMessages handled.2 }

/-- The claim an answer finds held. -/
def foundBy (h : Hearing) (key : EntryId) (answer : CheckAnswer) : List TermClaim :=
  match h.terms.entryOf? key with
  | some entry => if entry.phase = .checking ∧ answer = .held then [entry.claim] else []
  | none => []

def step (sender : ClientId) (h : Hearing) : HearingEvent → Option Hearing
  | .arrives claim message =>
    if h.Honest sender claim message then some ((h.hear claim message).perform (.message message))
    else none
  | .checkAnswered key answer =>
    some ({ h with
      foundHeld := h.foundHeld ++ h.foundBy key answer }.perform (.checkAnswered key answer))
  | .watchAnswered key isEnding => some (h.perform (.watchAnswered key isEnding))

end Hearing

/-- Everything a tab can hear from one honest sender, with the lock manager's answers in any
order. -/
def hearings (sender : ClientId) : TransitionSystem Hearing HearingEvent :=
  ⟨.init, Hearing.step sender⟩

namespace Hearing

/-! ### the property, and when it holds -/

/-- The data and errors that arrived of a term. -/
def deviceMessages (h : Hearing) (claim : TermClaim) : List (TermClaim × ProtocolMessage) :=
  h.arrived.filter fun arrival => arrival.1 = claim ∧ arrival.2.body.isAboutDevice

/-- What was applied is some of what arrived, in its order, and all the data and errors of the terms
found held are among it. -/
def InOrder (h : Hearing) : Prop :=
  ∃ applied : List (TermClaim × ProtocolMessage), applied.map Prod.snd = h.applied ∧
    applied.Sublist h.arrived ∧
    ∀ claim ∈ h.foundHeld, (h.deviceMessages claim).Sublist applied

/-- Whether the message is one that waits for a check. -/
def mustWait (s : OwnerTerms) (message : ProtocolMessage) : Bool :=
  match message.claim? with
  | some claim => (s.get? claim.term).all fun entry => entry.phase = .checking
  | none =>
    match message.body with
    | .ownerReleased term => (s.get? term).any fun entry => entry.phase = .checking
    | _ => !s.speaksForLiveTerm message.sender && (s.checkedTermOf message.sender).isSome

/-- No more than `MAX_TERM_FLOOD` messages wait, the one that arrives included. -/
def hasRoom (h : Hearing) : HearingEvent → Bool
  | .arrives _ message =>
    !mustWait h.terms message || (h.terms.terms.flatMap KnownTerm.waiting).length < maxTermFlood
  | .checkAnswered .. | .watchAnswered .. => true

/-- The step meets no two terms of the sender at once: data and errors find the term they were sent
in, a check that starts finds nothing of its term heard before, and the first of the terms being
checked is the one found held. -/
def inTurn (h : Hearing) : HearingEvent → Bool
  | .arrives claim message =>
    if message.body.isAboutDevice then
      (claim ∉ h.foundHeld || h.terms.terms.any fun entry => entry.claim = claim ∧
          entry.phase = .live) &&
        if h.terms.speaksForLiveTerm message.sender then h.terms.terms.all fun entry =>
          entry.phase ≠ .checking
        else (h.terms.checkedTermOf message.sender).all fun entry => entry.claim = claim
    else message.claim? = none || (h.terms.get? claim.term).isSome || h.deviceMessages claim = []
  | .checkAnswered key .held => (h.terms.entryOf? key).all fun entry =>
      entry.phase ≠ .checking || h.terms.checkedTermOf entry.claim.sender = some entry
  | .checkAnswered .. | .watchAnswered .. => true

/-! ### what the order depends on -/

end Hearing

/-- What the order of the messages depends on in an entry. -/
structure TermView where
  claim : TermClaim
  phase : TermPhase
  waiting : List Waiting

def KnownTerm.view (entry : KnownTerm) : TermView := ⟨entry.claim, entry.phase, entry.waiting⟩

/-- The message a closure applies. -/
def Waiting.message? : Waiting → Option ProtocolMessage
  | .observe _ message | .authorize message => some message
  | .heardReleased .. => none

/-- The messages that wait, each with the claim it waits for. -/
def TermView.holds (view : TermView) : List (TermClaim × ProtocolMessage) :=
  view.waiting.filterMap fun run => run.message?.map fun message => (view.claim, message)

namespace Hearing

/-- What is kept by every step in turn: the terms are known in the order of their claims, none is
checked before a live one, and what waits comes, in order, after what was applied. -/
structure Ordered (sender : ClientId) (views : List TermView) (h : Hearing) : Prop where
  known : (views.map TermView.claim).Sublist h.claims
  distinct : (h.claims.map TermClaim.term).Nodup
  senders : ∀ claim ∈ h.claims, claim.sender = sender
  spoken : ∀ arrival ∈ h.arrived, arrival.1 ∈ h.claims
  idle : ∀ view ∈ views, view.phase ≠ .checking → view.waiting = []
  checked : views.Pairwise fun view later => later.phase = .live → view.phase ≠ .checking
  order : ∃ applied : List (TermClaim × ProtocolMessage), applied.map Prod.snd = h.applied ∧
    (applied ++ views.flatMap TermView.holds).Sublist h.arrived ∧
      ∀ claim ∈ h.foundHeld, (h.deviceMessages claim).Sublist applied
  kept : ∀ view ∈ views, view.phase = .checking → (h.deviceMessages view.claim).Sublist view.holds

variable {sender : ClientId} {views views' l r : List TermView} {view view' : TermView}
  {h : Hearing} {claim : TermClaim}
  {message : ProtocolMessage} {run : Waiting}

theorem ordered_init : Ordered sender [] init where
  known := List.Sublist.refl _
  distinct := List.nodup_nil
  senders _ h := absurd h List.not_mem_nil
  spoken _ h := absurd h List.not_mem_nil
  idle _ h := absurd h List.not_mem_nil
  checked := List.Pairwise.nil
  order := ⟨[], rfl, List.Sublist.refl _, fun _ h => absurd h List.not_mem_nil⟩
  kept _ h := absurd h List.not_mem_nil

theorem Ordered.inOrder (ho : Ordered sender views h) : h.InOrder := by
  obtain ⟨applied, hmap, hsub, hfound⟩ := ho.order
  exact ⟨applied, hmap, (List.sublist_append_left _ _).trans hsub, hfound⟩

/-! ### entries given up, refused or over -/

theorem Ordered.forget (ho : Ordered sender views h) (hsub : views'.Sublist views) :
    Ordered sender views' h where
  known := (hsub.map _).trans ho.known
  distinct := ho.distinct
  senders := ho.senders
  spoken := ho.spoken
  idle view hv := ho.idle view (hsub.subset hv)
  checked := ho.checked.sublist hsub
  order := by
    obtain ⟨applied, hmap, harrived, hfound⟩ := ho.order
    exact ⟨applied, hmap, ((List.Sublist.refl _).append (hsub.flatMap _)).trans harrived, hfound⟩
  kept view hv := ho.kept view (hsub.subset hv)

/-- An entry that becomes refused or ended. -/
theorem Ordered.close (ho : Ordered sender (l ++ view :: r) h) (view' : TermView)
    (hclaim : view'.claim = view.claim) (hwaiting : view'.waiting = [])
    (hchecking : view'.phase ≠ .checking) (hlive : view'.phase ≠ .live) :
    Ordered sender (l ++ view' :: r) h := by
  have hempty : view'.holds = [] := by rw [TermView.holds, hwaiting, List.filterMap_nil]
  have hmem : ∀ v ∈ l ++ view' :: r, v = view' ∨ v ∈ l ++ view :: r := by
    intro v hv
    rcases List.mem_append.mp hv with hv | hv
    · exact Or.inr (List.mem_append_left _ hv)
    · exact (List.mem_cons.mp hv).imp_right fun hv =>
        List.mem_append_right _ (List.mem_cons_of_mem _ hv)
  refine ⟨?_, ho.distinct, ho.senders, ho.spoken, fun v hv hphase => ?_, ?_, ?_,
    fun v hv hphase => ?_⟩
  · have hknown := ho.known
    simp only [List.map_append, List.map_cons, hclaim] at hknown ⊢
    exact hknown
  · rcases hmem v hv with rfl | hv
    · exact hwaiting
    · exact ho.idle v hv hphase
  · have hpairs := ho.checked
    simp only [List.pairwise_append, List.pairwise_cons, List.mem_cons] at hpairs ⊢
    obtain ⟨hl, ⟨-, hr⟩, hcross⟩ := hpairs
    refine ⟨hl, ⟨fun v _ _ => hchecking, hr⟩, fun v hv later hlater => ?_⟩
    rcases hlater with rfl | hlater
    · exact fun h => absurd h hlive
    · exact hcross v hv later (Or.inr hlater)
  · obtain ⟨applied, hmap, harrived, hfound⟩ := ho.order
    refine ⟨applied, hmap, List.Sublist.trans ?_ harrived, hfound⟩
    refine (List.Sublist.refl _).append ?_
    simp only [List.flatMap_append, List.flatMap_cons, hempty, List.nil_append]
    exact (List.Sublist.refl _).append (List.sublist_append_right _ _)
  · rcases hmem v hv with rfl | hv
    · exact absurd hphase hchecking
    · exact ho.kept v hv hphase

/-! ### a lock found held -/

theorem flatMap_holds_eq_nil (hidle : ∀ view ∈ l, view.waiting = []) :
    l.flatMap TermView.holds = [] := by
  refine List.flatMap_eq_nil_iff.mpr fun view hv => ?_
  rw [TermView.holds, hidle view hv, List.filterMap_nil]

/-- What waited for the first of the terms being checked is applied in the order it came. -/
theorem Ordered.held (ho : Ordered sender (l ++ view :: r) h) (hphase : view.phase = .checking)
    (hfirst : ∀ v ∈ l, v.phase ≠ .checking) : Ordered sender (l ++ ⟨view.claim, .live, []⟩ :: r)
      { h with
      applied := h.applied ++ view.holds.map Prod.snd
      foundHeld := h.foundHeld ++ [view.claim] } := by
  have hmem : ∀ v ∈ l ++ ⟨view.claim, .live, []⟩ :: r, v = ⟨view.claim, .live, []⟩ ∨
      v ∈ l ++ view :: r := by
    intro v hv
    rcases List.mem_append.mp hv with hv | hv
    · exact Or.inr (List.mem_append_left _ hv)
    · exact (List.mem_cons.mp hv).imp_right fun hv =>
        List.mem_append_right _ (List.mem_cons_of_mem _ hv)
  refine ⟨?_, ho.distinct, ho.senders, ho.spoken, fun v hv hv' => ?_, ?_, ?_, fun v hv hv' => ?_⟩
  · have hknown := ho.known
    simp only [List.map_append, List.map_cons] at hknown ⊢
    exact hknown
  · rcases hmem v hv with rfl | hv
    · rfl
    · exact ho.idle v hv hv'
  · have hpairs := ho.checked
    simp only [List.pairwise_append, List.pairwise_cons, List.mem_cons] at hpairs ⊢
    obtain ⟨hl, ⟨-, hr⟩, hcross⟩ := hpairs
    refine ⟨hl, ⟨fun v _ _ => nofun, hr⟩, fun v hv later hlater => ?_⟩
    rcases hlater with rfl | hlater
    · exact fun _ => hfirst v hv
    · exact hcross v hv later (Or.inr hlater)
  · obtain ⟨applied, hmap, harrived, hfound⟩ := ho.order
    have hl : l.flatMap TermView.holds = [] :=
      flatMap_holds_eq_nil fun v hv => ho.idle v (List.mem_append_left _ hv) (hfirst v hv)
    refine ⟨applied ++ view.holds, by rw [List.map_append, hmap], ?_, fun claim hclaim => ?_⟩
    · simp only [List.flatMap_append, List.flatMap_cons, hl, List.nil_append] at harrived ⊢
      rw [List.append_assoc]
      exact harrived
    · rcases List.mem_append.mp hclaim with hclaim | hclaim
      · exact (hfound claim hclaim).trans (List.sublist_append_left _ _)
      · obtain rfl := List.mem_singleton.mp hclaim
        exact (ho.kept view (List.mem_append_right _ List.mem_cons_self) hphase).trans
          (List.sublist_append_right _ _)
  · rcases hmem v hv with rfl | hv
    · cases hv'
    · exact ho.kept v hv hv'

/-! ### a message arrives -/

theorem deviceMessages_hear {c : TermClaim} : (h.hear claim message).deviceMessages c =
    h.deviceMessages c ++
      if c = claim ∧ message.body.isAboutDevice = true then [(claim, message)] else [] := by
  simp only [deviceMessages, hear, List.filter_append, List.filter_cons, List.filter_nil,
    eq_comm (a := claim)]
  congr 1
  by_cases hc : c = claim ∧ message.body.isAboutDevice = true
  · rw [if_pos hc, if_pos (decide_eq_true hc)]
  · rw [if_neg hc, if_neg fun h => hc (of_decide_eq_true h)]

theorem deviceMessages_hear_of_ne {c : TermClaim}
    (hne : message.body.isAboutDevice = true → c ≠ claim) :
    (h.hear claim message).deviceMessages c = h.deviceMessages c := by
  rw [deviceMessages_hear, if_neg fun hc => hne hc.2 hc.1, List.append_nil]

theorem deviceMessages_hear_sublist {c : TermClaim} {applied : List (TermClaim × ProtocolMessage)}
    (hsub : (h.deviceMessages c).Sublist applied) :
    ((h.hear claim message).deviceMessages c).Sublist (applied ++ [(claim, message)]) := by
  rw [deviceMessages_hear]
  split
  · exact hsub.append (List.Sublist.refl _)
  · rw [List.append_nil]
    exact hsub.trans (List.sublist_append_left _ _)

/-- What a message does to the record of the claims. -/
structure ClaimsKept (sender : ClientId) (h : Hearing) (claim : TermClaim)
    (message : ProtocolMessage) : Prop where
  sublist : h.claims.Sublist (h.hear claim message).claims
  last : ∃ before, (h.hear claim message).claims = before ++ [claim]
  distinct : ((h.hear claim message).claims.map TermClaim.term).Nodup
  senders : ∀ claim' ∈ (h.hear claim message).claims, claim'.sender = sender
  spoken : ∀ arrival ∈ (h.hear claim message).arrived, arrival.1 ∈ (h.hear claim message).claims

theorem Ordered.claimsKept (ho : Ordered sender views h) (hhonest : h.Honest sender claim message) :
    ClaimsKept sender h claim message := by
  obtain ⟨-, hsender, -, hclaim⟩ := hhonest
  have hsub : h.claims.Sublist (h.hear claim message).claims := by
    unfold hear
    dsimp only
    split
    · exact List.Sublist.refl _
    · exact List.sublist_append_left _ _
  have hlast : ∃ before, (h.hear claim message).claims = before ++ [claim] := by
    unfold hear
    dsimp only
    split
    · next hlast => exact List.getLast?_eq_some_iff.mp hlast
    · exact ⟨_, rfl⟩
  refine ⟨hsub, hlast, ?_, fun claim' hclaim' => ?_, fun arrival harrival => ?_⟩
  · unfold hear
    dsimp only
    split
    · exact ho.distinct
    · next hnot =>
      have hnew := (hclaim.resolve_left hnot).2
      rw [List.map_append, List.map_cons, List.map_nil]
      exact List.nodup_append.mpr ⟨ho.distinct, List.nodup_singleton _,
          fun term hterm term' hterm' => by
        rw [List.mem_singleton.mp hterm']
        exact fun heq => hnew (heq ▸ hterm)⟩
  · unfold hear at hclaim'
    dsimp only at hclaim'
    split at hclaim'
    · exact ho.senders claim' hclaim'
    · rcases List.mem_append.mp hclaim' with hclaim' | hclaim'
      · exact ho.senders claim' hclaim'
      · rw [List.mem_singleton.mp hclaim', hsender]
  · obtain ⟨before, hbefore⟩ := hlast
    rcases List.mem_append.mp harrival with harrival | harrival
    · exact hsub.subset (ho.spoken arrival harrival)
    · rw [List.mem_singleton.mp harrival, hbefore]
      exact List.mem_append_right _ (List.mem_singleton_self _)

/-- A message that is dropped. -/
theorem Ordered.drop (ho : Ordered sender views h) (hhonest : h.Honest sender claim message)
    (hdevice : message.body.isAboutDevice = true →
      claim ∉ h.foundHeld ∧ ∀ view ∈ views, view.phase = .checking → view.claim ≠ claim) :
    Ordered sender views (h.hear claim message) := by
  have hclaims := ho.claimsKept hhonest
  refine ⟨ho.known.trans hclaims.sublist, hclaims.distinct, hclaims.senders, hclaims.spoken,
    ho.idle, ho.checked, ?_,
    fun view hv hphase => ?_⟩
  · obtain ⟨applied, hmap, harrived, hfound⟩ := ho.order
    refine ⟨applied, hmap, harrived.trans (List.sublist_append_left _ _), fun c hc => ?_⟩
    rw [deviceMessages_hear_of_ne fun hd (heq : c = claim) => (hdevice hd).1 (heq ▸ hc)]
    exact hfound c hc
  · rw [deviceMessages_hear_of_ne fun hd => (hdevice hd).2 view hv hphase]
    exact ho.kept view hv hphase

/-- A message that is applied as it arrives, while nothing waits. -/
theorem Ordered.apply (ho : Ordered sender views h) (hhonest : h.Honest sender claim message)
    (hnone : ∀ view ∈ views, view.phase ≠ .checking) :
    Ordered sender views { h.hear claim message with applied := h.applied ++ [message] } := by
  have hclaims := ho.claimsKept hhonest
  refine ⟨ho.known.trans hclaims.sublist, hclaims.distinct, hclaims.senders, hclaims.spoken,
    ho.idle, ho.checked, ?_,
    fun view hv hphase => absurd hphase (hnone view hv)⟩
  obtain ⟨applied, hmap, harrived, hfound⟩ := ho.order
  have hwaiting : views.flatMap TermView.holds = [] :=
    flatMap_holds_eq_nil fun v hv => ho.idle v hv (hnone v hv)
  rw [hwaiting, List.append_nil] at harrived
  refine ⟨applied ++ [(claim, message)], by rw [List.map_append, hmap]; rfl, ?_, fun c hc =>
    deviceMessages_hear_sublist (hfound c hc)⟩
  rw [hwaiting, List.append_nil]
  exact harrived.append (List.Sublist.refl _)

/-- A message that starts the check of its term. -/
theorem Ordered.ask (ho : Ordered sender views h) (hhonest : h.Honest sender claim message)
    (hnew : ∀ view ∈ views, view.claim ≠ claim) (hbody : message.body.isAboutDevice = false)
    (hnone : h.deviceMessages claim = []) :
    Ordered sender (views ++ [⟨claim, .checking, [.observe claim message]⟩])
    (h.hear claim message) := by
  have hclaims := ho.claimsKept hhonest
  have hdevice : ∀ c, (h.hear claim message).deviceMessages c = h.deviceMessages c := fun c =>
    deviceMessages_hear_of_ne fun hd => absurd (hbody.symm.trans hd) nofun
  refine ⟨?_, hclaims.distinct, hclaims.senders, hclaims.spoken, fun v hv hphase => ?_, ?_, ?_,
    fun v hv hphase => ?_⟩
  · obtain ⟨before, hbefore⟩ := hclaims.last
    have hknown := ho.known.trans hclaims.sublist
    rw [hbefore] at hknown ⊢
    rw [List.map_append, List.map_cons, List.map_nil]
    obtain ⟨l₁, l₂, hsplit, hl₁, hl₂⟩ := List.sublist_append_iff.mp hknown
    have hempty : l₂ = [] := by
      refine List.eq_nil_iff_forall_not_mem.mpr fun c hc => ?_
      have hclaim := List.mem_singleton.mp (hl₂.subset hc)
      obtain ⟨v, hv, hvc⟩ :=
        List.mem_map.mp (hsplit ▸ List.mem_append_right l₁ hc : c ∈ views.map TermView.claim)
      exact hnew v hv (hvc.trans hclaim)
    rw [hempty, List.append_nil] at hsplit
    rw [hsplit]
    exact hl₁.append (List.Sublist.refl _)
  · rcases List.mem_append.mp hv with hv | hv
    · exact ho.idle v hv hphase
    · rw [List.mem_singleton.mp hv] at hphase
      exact absurd rfl hphase
  · refine List.pairwise_append.mpr ⟨ho.checked, List.pairwise_singleton _ _,
      fun v _ later hlater hlive => ?_⟩
    rw [List.mem_singleton.mp hlater] at hlive
    cases hlive
  · obtain ⟨applied, hmap, harrived, hfound⟩ := ho.order
    refine ⟨applied, hmap, ?_, fun c hc => (hdevice c).symm ▸ hfound c hc⟩
    rw [List.flatMap_append, ← List.append_assoc]
    exact harrived.append (List.Sublist.refl _)
  · rw [hdevice]
    rcases List.mem_append.mp hv with hv | hv
    · exact ho.kept v hv hphase
    · rw [List.mem_singleton.mp hv, hnone]
      exact List.nil_sublist _

/-- A message that waits for the check of its own term, the last that is known. -/
theorem Ordered.keep (ho : Ordered sender (l ++ [view]) h) (run : Waiting)
    (hhonest : h.Honest sender view.claim message)
    (hphase : view.phase = .checking)
    (hdevice : message.body.isAboutDevice = true → view.claim ∉ h.foundHeld)
    (hrun : run.message? = some message ∨
      (run.message? = none ∧ message.body.isAboutDevice = false)) :
    Ordered sender (l ++ [{ view with waiting := view.waiting ++ [run] }])
    (h.hear view.claim message) := by
  have hclaims := ho.claimsKept hhonest
  have hknown := ho.known.trans hclaims.sublist
  have hnodup := (hclaims.distinct.of_map _).sublist hknown
  rw [List.map_append, List.map_cons, List.map_nil] at hnodup
  have hothers : ∀ v ∈ l, v.claim ≠ view.claim := fun v hv heq =>
    (List.nodup_append.mp hnodup).2.2 _ (List.mem_map_of_mem hv) _ (List.mem_singleton_self _) heq
  have hholds : TermView.holds { view with waiting := view.waiting ++ [run] } =
      view.holds ++ (run.message?.map fun m => (view.claim, m)).toList := by
    simp only [TermView.holds, List.filterMap_append, List.filterMap_cons, List.filterMap_nil]
    cases run.message? <;> rfl
  have hkept : ∀ c, ((h.deviceMessages c).Sublist view.holds) →
      ((h.hear view.claim message).deviceMessages c).Sublist (TermView.holds
        { view with waiting := view.waiting ++ [run] }) := by
    intro c hc
    rw [hholds]
    rcases hrun with hrun | ⟨hrun, hbody⟩
    · rw [hrun]
      exact deviceMessages_hear_sublist hc
    · rw [deviceMessages_hear_of_ne fun hd => absurd (hbody.symm.trans hd) nofun, hrun]
      simpa using hc
  refine ⟨?_, hclaims.distinct, hclaims.senders, hclaims.spoken, fun v hv hv' => ?_, ?_, ?_,
    fun v hv hv' => ?_⟩
  · simp only [List.map_append, List.map_cons] at hknown ⊢
    exact hknown
  · rcases List.mem_append.mp hv with hv | hv
    · exact ho.idle v (List.mem_append_left _ hv) hv'
    · rw [List.mem_singleton.mp hv] at hv'
      exact absurd hphase hv'
  · have hpairs := ho.checked
    simp only [List.pairwise_append, List.pairwise_cons, List.mem_singleton] at hpairs ⊢
    refine ⟨hpairs.1, ⟨by simp, List.Pairwise.nil⟩, fun v hv later hlater hlive => ?_⟩
    rw [hlater] at hlive
    exact absurd (hphase.symm.trans hlive) nofun
  · obtain ⟨applied, hmap, harrived, hfound⟩ := ho.order
    refine ⟨applied, hmap, ?_, fun c hc => ?_⟩
    · simp only [List.flatMap_append, List.flatMap_cons, List.flatMap_nil, List.append_nil,
        hholds] at harrived ⊢
      rw [← List.append_assoc, ← List.append_assoc]
      rw [← List.append_assoc] at harrived
      refine harrived.append ?_
      rcases hrun with hrun | ⟨hrun, -⟩
      · rw [hrun]
        exact List.Sublist.refl _
      · rw [hrun]
        exact List.nil_sublist _
    · rw [deviceMessages_hear_of_ne fun hd (heq : c = view.claim) => hdevice hd (heq ▸ hc)]
      exact hfound c hc
  · rcases List.mem_append.mp hv with hv | hv
    · rw [deviceMessages_hear_of_ne fun _ => hothers v hv]
      exact ho.kept v (List.mem_append_left _ hv) hv'
    · rw [List.mem_singleton.mp hv]
      exact hkept _ (ho.kept view (List.mem_append_right _ (List.mem_singleton_self _)) hphase)

/-- The term spoken for last is the last that is known. -/
theorem Ordered.last (ho : Ordered sender (l ++ view :: r) h)
    (hhonest : h.Honest sender view.claim message) : r = [] := by
  have hclaims := ho.claimsKept hhonest
  obtain ⟨before, hbefore⟩ := hclaims.last
  have hknown := ho.known.trans hclaims.sublist
  rw [List.map_append, List.map_cons] at hknown
  obtain ⟨r₁, r₂, hsplit, hmem, hsub⟩ :=
    List.cons_sublist_iff.mp ((List.sublist_append_right _ _).trans hknown)
  have hnodup : (r₁ ++ r₂).Nodup := hsplit ▸ hclaims.distinct.of_map _
  have hempty : r₂ = [] := by
    by_contra hne
    have hlast : r₂.getLast hne = view.claim := by
      have hget : (r₁ ++ r₂).getLast? = some view.claim := by
        rw [← hsplit, hbefore, List.getLast?_concat]
      rw [List.getLast?_append_of_ne_nil _ hne, List.getLast?_eq_some_getLast hne] at hget
      exact Option.some.inj hget
    exact (List.nodup_append.mp hnodup).2.2 _ hmem _ (List.getLast_mem hne) hlast.symm
  rw [hempty] at hsub
  exact List.map_eq_nil_iff.mp (List.sublist_nil.mp hsub)

end Hearing

namespace OwnerTerms

variable {s s' : OwnerTerms} {next id key : EntryId} {entry : KnownTerm} {claim : TermClaim}
  {message : ProtocolMessage}
  {input : TermInput} {effects : List TermEffect} {l r : List KnownTerm}

/-! ### what an input does to what the order depends on -/

def views (s : OwnerTerms) : List TermView := s.terms.map KnownTerm.view

theorem views_modify {f : KnownTerm → KnownTerm} (hf : ∀ e, (f e).view = e.view) :
    (s.modify key f).views = s.views := by
  simp only [views, OwnerTerms.modify, KeyedList.adjust, List.map_map]
  refine List.map_congr_left fun e _ => ?_
  simp only [Function.comp_apply]
  split
  · exact hf e
  · rfl

theorem Consistent.views_modify_split (h : s.Consistent next) (hsplit : s.terms = l ++ entry :: r)
    {f : KnownTerm → KnownTerm} :
    (s.modify entry.key f).views = l.map KnownTerm.view ++
      (f entry).view :: r.map KnownTerm.view := by
  have hkeys := h.keys
  rw [hsplit] at hkeys
  rw [views, OwnerTerms.modify, hsplit, hkeys.adjust_split, List.map_append, List.map_cons]

theorem views_split (hsplit : s.terms = l ++ entry :: r) :
    s.views = l.map KnownTerm.view ++ entry.view :: r.map KnownTerm.view := by
  rw [views, hsplit, List.map_append, List.map_cons]

theorem views_makeCurrent : (s.makeCurrent entry).views = s.views := by
  rw [views, makeCurrent_terms, List.map_map]
  refine List.map_congr_left fun e _ => ?_
  simp only [Function.comp_apply, succeededBy]
  split <;> rfl

theorem Consistent.views_believed (h : s.Consistent next) (hsplit : s.terms = l ++ entry :: r) :
    (s.believed entry).views = l.map KnownTerm.view ++ ⟨entry.claim, .live, []⟩ ::
      r.map KnownTerm.view := by
  rw [believed, views_modify (f := hear _) fun _ => rfl, views_makeCurrent,
    h.views_modify_split hsplit]
  rfl

theorem Consistent.views_endTerm (h : s.Consistent next) (hsplit : s.terms = l ++ entry :: r)
    (hphase : entry.phase ≠ .ended) :
    (s.endTerm entry).1.views = l.map KnownTerm.view ++ ⟨entry.claim, .ended, []⟩ ::
      r.map KnownTerm.view := by
  rw [endTerm_eq hphase]
  exact h.views_modify_split hsplit

theorem shrink_sublist (s : OwnerTerms) (rounds : Nat) :
    (s.shrink rounds).1.terms.Sublist s.terms := by
  induction rounds generalizing s with
  | zero => exact List.Sublist.refl _
  | succ rounds ih =>
    unfold shrink
    split
    · exact List.Sublist.refl _
    · split
      · exact List.Sublist.refl _
      · exact (ih _).trans List.filter_sublist

theorem views_forget (s : OwnerTerms) (entry : KnownTerm) :
    (s.forget entry).1.views.Sublist s.views := List.filter_sublist.map _

theorem views_remember (s : OwnerTerms) (entry : KnownTerm) (hnew : s.get? entry.term = none) :
    (s.remember entry).1.views.Sublist (s.views ++ [entry.view]) := by
  have hsub := (shrink_sublist { s with terms := KeyedList.put KnownTerm.term entry s.terms }
    (KeyedList.put KnownTerm.term entry s.terms).length).map KnownTerm.view
  rw [KeyedList.put_of_lookup_none hnew, List.map_append, List.map_cons, List.map_nil] at hsub
  rw [← KeyedList.put_of_lookup_none hnew] at hsub
  exact hsub

theorem authorize_device (hdevice : message.body.isAboutDevice = true)
    (hdisposed : s.isDisposed = false) :
    s.authorize id message =
      if s.speaksForLiveTerm message.sender then (s, [.apply message])
      else match s.checkedTermOf message.sender with
        | some checking => (s.waitFor checking (.authorize message), [])
        | none => (s, []) := by
  unfold authorize
  rw [if_neg (by simp [hdisposed])]
  cases hbody : message.body with
  | dataReceived | dataSent | error => rfl
  | _ =>
    rw [hbody] at hdevice
    cases hdevice

end OwnerTerms

namespace Hearing

variable {sender : ClientId} {h h' : Hearing} {claim : TermClaim} {message : ProtocolMessage}
  {entry : KnownTerm} {key : EntryId}

open OwnerTerms

/-- What every step in turn keeps. -/
structure Sound (sender : ClientId) (h : Hearing) : Prop where
  wellFormed : h.terms.WellFormed h.nextKey
  enabled : h.terms.isDisposed = false
  ordered : Ordered sender h.terms.views h

theorem sound_init : Sound sender init := ⟨empty_wellFormed, rfl, ordered_init⟩

theorem Sound.sender_eq (hs : h.Sound sender) (he : entry ∈ h.terms.terms) :
    entry.claim.sender = sender :=
  hs.ordered.senders _
    (hs.ordered.known.subset (List.mem_map_of_mem (List.mem_map_of_mem (f := KnownTerm.view) he)))

theorem Sound.perform (hs : h.Sound sender) {input : TermInput} (hinput : input ≠ .dispose) :
    (h.terms.handle h.nextKey input).1.WellFormed (h.nextKey + 1) ∧
      (h.terms.handle h.nextKey input).1.isDisposed = false := by
  have hh : Handled h.terms h.nextKey input (h.terms.handle h.nextKey input).1
      (h.terms.handle h.nextKey input).2 :=
    handle_handled hs.wellFormed
  exact ⟨hh.wellFormed hs.wellFormed (Nat.le_refl _), (hh.isDisposed hinput).trans hs.enabled⟩

theorem appliedMessages_flatMap (entry : KnownTerm) :
    appliedMessages (entry.waiting.flatMap Waiting.applied) = entry.view.holds.map Prod.snd := by
  simp only [TermView.holds, KnownTerm.view]
  induction entry.waiting with
  | nil => rfl
  | cons run runs ih =>
    simp only [appliedMessages, List.flatMap_cons, List.filterMap_append] at ih ⊢
    rw [ih]
    cases run <;> simp [Waiting.applied, Waiting.message?]

theorem Sound.checkAnswered (hs : h.Sound sender) {answer : CheckAnswer}
    (hturn : h.inTurn (.checkAnswered key answer) = true) :
    Sound sender ({ h with
    foundHeld := h.foundHeld ++ h.foundBy key answer }.perform (.checkAnswered key answer)) := by
  obtain ⟨hwf, hdisposed⟩ := hs.perform (show TermInput.checkAnswered key answer ≠ .dispose by simp)
  refine ⟨hwf, hdisposed, ?_⟩
  have hnothing : (h.terms.checkAnswered h.nextKey key answer) = (h.terms, []) →
      h.foundBy key answer = [] →
      Ordered sender (h.terms.handle h.nextKey (.checkAnswered key answer)).1.views
        ({ h with foundHeld := h.foundHeld ++ h.foundBy key answer }.perform
          (.checkAnswered key answer)) := by
    intro hsame hnone
    have ho := hs.ordered
    simp only [Hearing.perform, OwnerTerms.handle, hsame, hnone, appliedMessages,
      List.filterMap_nil, List.append_nil]
    exact { ho with }
  cases hentry : h.terms.entryOf? key with
  | none =>
    exact hnothing (by simp only [OwnerTerms.checkAnswered, hentry])
      (by simp only [foundBy, hentry])
  | some entry =>
    obtain ⟨he, rfl⟩ := mem_of_entryOf? hentry
    obtain ⟨l, r, hsplit⟩ := List.append_of_mem he
    have ho := hs.ordered
    by_cases hc : entry.phase = .checking
    · cases answer with
      | unknown =>
        have hsame : h.terms.checkAnswered h.nextKey entry.key .unknown = h.terms.forget entry := by
          simp only [OwnerTerms.checkAnswered, hentry, hc, ne_eq, not_true_eq_false, if_false]
        have hnone : h.foundBy entry.key .unknown = [] := by simp [foundBy, hentry]
        simp only [Hearing.perform, OwnerTerms.handle, hsame, hnone, OwnerTerms.forget,
          appliedMessages, List.filterMap_cons,
          List.filterMap_nil, List.append_nil]
        exact { ho.forget (views_forget h.terms entry) with }
      | free =>
        have hsame : h.terms.checkAnswered h.nextKey entry.key .free = (h.terms.modify entry.key
            refuse, []) := by
          simp only [OwnerTerms.checkAnswered, hentry, hc, ne_eq, not_true_eq_false, if_false]
          rfl
        have hnone : h.foundBy entry.key .free = [] := by simp [foundBy, hentry]
        rw [views_split hsplit] at ho
        simp only [Hearing.perform, OwnerTerms.handle, hsame, hnone, appliedMessages,
          List.filterMap_nil, List.append_nil,
          hs.wellFormed.toConsistent.views_modify_split hsplit]
        exact { ho.close (refuse entry).view rfl rfl (show TermPhase.refused ≠ .checking by decide)
          (show TermPhase.refused ≠ .live by decide) with }
      | held =>
        have hfound : h.foundBy entry.key .held = [entry.claim] := by simp [foundBy, hentry, hc]
        have hfirst : h.terms.checkedTermOf entry.claim.sender = some entry := by
          simpa [inTurn, hentry, hc] using hturn
        obtain ⟨-, l, r, hsplit, hbefore⟩ := List.find?_eq_some_iff_append.mp hfirst
        have hunchecked : ∀ v ∈ l.map KnownTerm.view, v.phase ≠ .checking := by
          intro v hv hphase
          obtain ⟨e, he', rfl⟩ := List.mem_map.mp hv
          have hmem : e ∈ h.terms.terms := hsplit ▸ List.mem_append_left _ he'
          have hnot := hbefore e he'
          simp only [hs.sender_eq hmem, hs.sender_eq he, true_and, Bool.not_eq_true',
            decide_eq_false_iff_not] at hnot
          exact hnot hphase
        have hbelieved := hs.wellFormed.toConsistent.views_believed hsplit
        rw [views_split hsplit] at ho
        have happlied : appliedMessages (.watch entry.key entry.claim ::
            entry.waiting.flatMap Waiting.applied) =
            entry.view.holds.map Prod.snd := appliedMessages_flatMap entry
        simp only [Hearing.perform, OwnerTerms.handle, checkAnswered_held hs.wellFormed he hc,
          hfound, hbelieved, happlied]
        exact { ho.held hc hunchecked with }
    · exact hnothing
        (by simp only [OwnerTerms.checkAnswered, hentry, ne_eq, hc, not_false_eq_true, if_true])
        (by simp [foundBy, hentry, hc])

theorem Sound.watchAnswered (hs : h.Sound sender) {isEnding : Bool} :
    Sound sender (h.perform (.watchAnswered key isEnding)) := by
  obtain ⟨hwf, hdisposed⟩ :=
    hs.perform (show TermInput.watchAnswered key isEnding ≠ .dispose from nofun)
  refine ⟨hwf, hdisposed, ?_⟩
  have hh : Handled h.terms h.nextKey (.watchAnswered key isEnding)
      (h.terms.handle h.nextKey (.watchAnswered key isEnding)).1
    (h.terms.handle h.nextKey (.watchAnswered key isEnding)).2 := handle_handled hs.wellFormed
  have ho := hs.ordered
  unfold Hearing.perform
  dsimp only
  generalize h.terms.handle h.nextKey (.watchAnswered key isEnding) = handled at hh
  obtain ⟨s', effects⟩ := handled
  dsimp only at hh ⊢
  cases hh with
  | ignored =>
    rw [appliedMessages, List.filterMap_nil, List.append_nil]
    exact { ho with }
  | ending entry he hlive hnot =>
    rw [appliedMessages, List.filterMap_nil, List.append_nil, views_modify (f := letGo)
      fun _ => rfl]
    exact { ho with }
  | watched entry isEnding he hlive hheard =>
    obtain ⟨l, r, hsplit⟩ := List.append_of_mem he
    have hphase : entry.phase ≠ .ended := by rw [hlive]; exact nofun
    rw [views_split hsplit] at ho
    rw [hs.wellFormed.toConsistent.views_endTerm hsplit hphase,
      show appliedMessages [.abort entry.key,
      .ended entry.key entry.term (h.terms.current = some entry.term)] = [] from rfl,
      List.append_nil]
    exact { ho.close ⟨entry.claim, .ended, []⟩ rfl rfl nofun nofun with }

/-- Data and errors are applied at once, or wait for the term they were sent in, or were sent in a
term that was not found held. -/
theorem Sound.arrives_device (hs : h.Sound sender) (hhonest : h.Honest sender claim message)
    (hroom : h.hasRoom (.arrives claim message) = true)
    (hturn : h.inTurn (.arrives claim message) = true)
    (hdevice : message.body.isAboutDevice = true) :
    Ordered sender (h.terms.authorize h.nextKey message).1.views
      { h.hear claim message with
      applied := h.applied ++ appliedMessages (h.terms.authorize h.nextKey message).2 } := by
  have hsender : message.sender = sender := hhonest.1
  have hclaim : message.claim? = none := (ProtocolMessage.kinds_of_device hdevice).1
  simp only [inTurn, hdevice, if_true, Bool.and_eq_true] at hturn
  obtain ⟨hlive, hturn⟩ := hturn
  have hunfound : h.terms.speaksForLiveTerm message.sender = false → claim ∉ h.foundHeld := by
    intro hspeaks hfound
    have hany : (h.terms.terms.any fun entry => entry.claim = claim ∧
      entry.phase = .live) = true := by simpa [hfound] using hlive
    obtain ⟨e, he, hentry⟩ := List.any_eq_true.mp hany
    obtain ⟨rfl, hphase⟩ := of_decide_eq_true hentry
    have hspeaks' : h.terms.speaksForLiveTerm message.sender = true :=
      List.any_eq_true.mpr ⟨e, he, decide_eq_true ⟨(hs.sender_eq he).trans hsender.symm, hphase⟩⟩
    rw [hspeaks] at hspeaks'
    cases hspeaks'
  rw [authorize_device hdevice hs.enabled]
  by_cases hspeaks : h.terms.speaksForLiveTerm message.sender = true
  · rw [if_pos hspeaks] at hturn ⊢
    refine hs.ordered.apply hhonest fun v hv => ?_
    obtain ⟨e, he, rfl⟩ := List.mem_map.mp hv
    exact of_decide_eq_true (List.all_eq_true.mp hturn e he)
  · have hspeaks : h.terms.speaksForLiveTerm message.sender = false := by simpa using hspeaks
    rw [hspeaks, if_neg (by simp)] at hturn ⊢
    cases hchecked : h.terms.checkedTermOf message.sender with
    | none =>
      rw [hchecked] at hturn
      dsimp only
      rw [appliedMessages, List.filterMap_nil, List.append_nil]
      refine { hs.ordered.drop hhonest fun _ => ⟨hunfound hspeaks, fun v hv hphase => ?_⟩ with }
      obtain ⟨e, he, rfl⟩ := List.mem_map.mp hv
      have hnot := List.find?_eq_none.mp hchecked e he
      exact absurd ⟨(hs.sender_eq he).trans hsender.symm, hphase⟩ (fun h => hnot (decide_eq_true h))
    | some e =>
      rw [hchecked] at hturn
      obtain rfl : e.claim = claim := of_decide_eq_true hturn
      have hentry := List.find?_some hchecked
      simp only [decide_eq_true_eq] at hentry
      have hphase : e.phase = .checking := hentry.2
      have he : e ∈ h.terms.terms := List.mem_of_find?_eq_some hchecked
      obtain ⟨l, r, hsplit⟩ := List.append_of_mem he
      have ho := hs.ordered
      rw [views_split hsplit] at ho
      have hr : r.map KnownTerm.view = [] := ho.last hhonest
      have hwaits : mustWait h.terms message = true := by
        unfold mustWait
        rw [hclaim]
        cases hbody : message.body with
        | ownerReleased term =>
          rw [hbody] at hdevice
          cases hdevice
        | _ => simp [hspeaks, hchecked]
      have hfits : e.waiting.length < maxTermFlood := by
        have htotal : (h.terms.terms.flatMap KnownTerm.waiting).length <
          maxTermFlood := by simpa [hasRoom, hwaits] using hroom
        rw [hsplit, List.flatMap_append, List.flatMap_cons, List.length_append,
          List.length_append] at htotal
        omega
      dsimp only
      rw [OwnerTerms.waitFor, if_neg (by omega),
        hs.wellFormed.toConsistent.views_modify_split hsplit, hr, appliedMessages,
        List.filterMap_nil, List.append_nil]
      rw [hr] at ho
      exact { ho.keep (.authorize message) hhonest hphase (fun _ =>
        hunfound hspeaks) (Or.inl rfl) with }

/-- Everything else an honest sender says keeps the order as well. -/
theorem Sound.arrives_other (hs : h.Sound sender) (hhonest : h.Honest sender claim message)
    (hturn : h.inTurn (.arrives claim message) = true)
    (hdevice : message.body.isAboutDevice = false) :
    Ordered sender (h.terms.authorize h.nextKey message).1.views
      { h.hear claim message with
      applied := h.applied ++ appliedMessages (h.terms.authorize h.nextKey message).2 } := by
  have ho := hs.ordered
  have hdropped : Ordered sender h.terms.views (h.hear claim message) :=
    ho.drop hhonest fun hd => absurd (hdevice.symm.trans hd) Bool.false_ne_true
  have hsaid : message.isSaidIn claim = true := hhonest.2.2.1
  have hnone : ∀ effects, appliedMessages effects = [] →
      ({ h.hear claim message with
        applied := h.applied ++ appliedMessages effects } : Hearing) = h.hear claim message := by
    intro effects heffects
    rw [heffects, List.append_nil]
    rfl
  have hh : Handled h.terms h.nextKey (.message message) (h.terms.authorize h.nextKey message).1
    (h.terms.authorize h.nextKey message).2 := authorize_handled hs.wellFormed
  generalize h.terms.authorize h.nextKey message = handled at hh
  obtain ⟨s', effects⟩ := handled
  dsimp only at hh ⊢
  cases hh with
  | ignored =>
    rw [hnone [] rfl]
    exact hdropped
  | applied message hb =>
    cases hb with
    | claim entry he hclaim hlive hfirst hcur =>
      obtain rfl : entry.claim = claim := by simpa [ProtocolMessage.isSaidIn, hclaim] using hsaid
      obtain ⟨l, r, hsplit⟩ := List.append_of_mem he
      have hviews := views_split hsplit
      rw [hviews] at ho ⊢
      have hr : r.map KnownTerm.view = [] := ho.last hhonest
      rw [hr] at ho ⊢
      refine ho.apply hhonest fun v hv => ?_
      rcases List.mem_append.mp hv with hv | hv
      · exact (List.pairwise_append.mp ho.checked).2.2 v hv _ (List.mem_singleton_self _) hlive
      · rw [List.mem_singleton.mp hv]
        exact fun hphase => absurd (hlive.symm.trans hphase) (by decide)
    | device entry he hd => exact absurd (hdevice.symm.trans hd) Bool.false_ne_true
    | answer entry he hanswer =>
      have hclaim := (ProtocolMessage.kinds_of_answer hanswer).1
      simp only [ProtocolMessage.isSaidIn, hclaim, hdevice, Bool.false_or,
        decide_eq_true_eq] at hsaid
      rw [hsaid] at hanswer
      cases hanswer
    | issuer hissuer =>
      have hclaim := (ProtocolMessage.kinds_of_issuer hissuer).1
      simp only [ProtocolMessage.isSaidIn, hclaim, hdevice, Bool.false_or,
        decide_eq_true_eq] at hsaid
      rw [hsaid] at hissuer
      cases hissuer
  | asked message claim' hclaim hnew hdisposed =>
    obtain rfl : claim' = claim := by simpa [ProtocolMessage.isSaidIn, hclaim] using hsaid
    have hfresh : h.deviceMessages claim' = [] := by
      simpa [inTurn, hdevice, hclaim, hnew] using hturn
    have hunknown : ∀ v ∈ h.terms.views, v.claim ≠ claim' := by
      intro v hv heq
      obtain ⟨e, he, rfl⟩ := List.mem_map.mp hv
      exact get?_eq_none.mp hnew e he (congrArg TermClaim.term heq)
    obtain ⟨-, -, hshrunk⟩ :=
        hs.wellFormed.toConsistent.remember (checkedEntry h.nextKey claim' message) (Nat.le_refl _)
      (checkedEntry_wellFormed hclaim)
      (fun hcur => by
        obtain ⟨e, he, hterm, -⟩ := hs.wellFormed.current _ hcur
        exact absurd hterm (get?_eq_none.mp hnew e he))
      (fun hd => by simp [hdisposed] at hd)
    have hquiet : appliedMessages ((h.terms.remember (checkedEntry h.nextKey claim' message)).2 ++
        [.check h.nextKey claim']) = [] := by
      refine List.filterMap_eq_nil_iff.mpr fun effect heffect => ?_
      rcases List.mem_append.mp heffect with heffect | heffect
      · obtain ⟨key, rfl, -⟩ := hshrunk.effects effect heffect
        rfl
      · rw [List.mem_singleton.mp heffect]
    rw [hnone _ hquiet]
    exact (ho.ask hhonest hunknown hdevice hfresh).forget
      (views_remember h.terms (checkedEntry h.nextKey claim' message) hnew)
  | kept message entry run he hc habout hof hroom =>
    obtain ⟨l, r, hsplit⟩ := List.append_of_mem he
    rw [hnone [] rfl, hs.wellFormed.toConsistent.views_modify_split hsplit]
    have hclaims := ho.claimsKept hhonest
    have hkind : entry.claim = claim ∧
        (run.message? = some message ∨
          (run.message? = none ∧ message.body.isAboutDevice = false)) := by
      cases run with
      | observe c m =>
        obtain ⟨rfl, hm⟩ := habout
        obtain rfl : m = message := hof
        exact ⟨by simpa [ProtocolMessage.isSaidIn, hm] using hsaid, Or.inl rfl⟩
      | heardReleased term from' =>
        obtain ⟨rfl, rfl⟩ := habout
        obtain ⟨hbody, hsender⟩ := hof
        have hterm : entry.claim.term = claim.term := by
          simpa [ProtocolMessage.isSaidIn, ProtocolMessage.claim?, hbody,
            MessageBody.isAboutDevice] using hsaid
        have hin : entry.claim ∈ (h.hear claim message).claims :=
          hclaims.sublist.subset
            (ho.known.subset (List.mem_map_of_mem (List.mem_map_of_mem (f := KnownTerm.view) he)))
        obtain ⟨before, hbefore⟩ := hclaims.last
        have hin' : claim ∈ (h.hear claim message).claims :=
          hbefore ▸ List.mem_append_right _ (List.mem_singleton_self _)
        exact ⟨List.inj_on_of_nodup_map hclaims.distinct hin hin' hterm, Or.inr ⟨rfl, hdevice⟩⟩
      | authorize m =>
        obtain ⟨hd, -⟩ := habout
        obtain rfl : m = message := hof
        exact absurd (hdevice.symm.trans hd) Bool.false_ne_true
    obtain ⟨rfl, hrun⟩ := hkind
    rw [views_split hsplit] at ho
    have hr : r.map KnownTerm.view = [] := ho.last hhonest
    rw [hr] at ho ⊢
    exact ho.keep run hhonest hc (fun hd => absurd (hdevice.symm.trans hd) Bool.false_ne_true) hrun
  | heard message entry hbody hsender he hlive hown hending =>
    rw [hnone [] rfl, views_modify (f := OwnerTerms.hear true) fun _ => rfl]
    exact hdropped
  | goodbye message entry hbody hsender he hlive hown hending =>
    obtain ⟨l, r, hsplit⟩ := List.append_of_mem he
    have hwf := hs.wellFormed.entries entry he
    have hheard : (h.terms.modify entry.key (OwnerTerms.hear true)).WellFormed h.nextKey :=
        hs.wellFormed.modify he rfl rfl rfl rfl
      ⟨fun hc => absurd (hlive.symm.trans hc) (by decide), hwf.waiting, hwf.observes, hwf.about⟩
    have hkeys := hs.wellFormed.keys
    rw [hsplit] at hkeys
    have hsplit' : (h.terms.modify entry.key (OwnerTerms.hear true)).terms = l ++
        OwnerTerms.hear true entry :: r := by
      rw [OwnerTerms.modify, hsplit]
      exact hkeys.adjust_split
    have hphase : (OwnerTerms.hear true entry).phase ≠ .ended :=
      fun hended => absurd (hlive.symm.trans hended) (by decide)
    rw [hnone _ rfl, hheard.toConsistent.views_endTerm hsplit' hphase]
    rw [views_split hsplit] at hdropped
    exact hdropped.close ⟨entry.claim, .ended, []⟩ rfl rfl
      (show TermPhase.ended ≠ .checking by decide) (show TermPhase.ended ≠ .live by decide)

theorem Sound.step (hs : h.Sound sender) {e : HearingEvent} (hroom : h.hasRoom e = true)
    (hturn : h.inTurn e = true)
    (hstep : (hearings sender).step h e = some h') : h'.Sound sender := by
  cases e with
  | arrives claim message =>
    obtain ⟨hhonest, hstep⟩ := Option.ite_none_right_eq_some.mp hstep
    obtain rfl := Option.some.inj hstep
    obtain ⟨hwf, hdisposed⟩ := hs.perform (show TermInput.message message ≠ .dispose from nofun)
    refine ⟨hwf, hdisposed, ?_⟩
    cases hdevice : message.body.isAboutDevice with
    | true => exact { hs.arrives_device hhonest hroom hturn hdevice with }
    | false => exact { hs.arrives_other hhonest hturn hdevice with }
  | checkAnswered key answer => exact Option.some.inj hstep ▸ hs.checkAnswered hturn
  | watchAnswered key isEnding => exact Option.some.inj hstep ▸ hs.watchAnswered

/-- **However the checks of one honest sender's terms are answered, with room for what waits: if
data and errors find the term they were sent in, no check starts over after them, and the first of
the terms being checked is the one found held, then what is applied is what arrived, in its order,
with all the data and errors of the terms found held.** -/
theorem applied_in_order {es : List HearingEvent} (hrun : (hearings sender).run es = some h)
    (hroom : (hearings sender).Always (fun h e => h.hasRoom e = true) es)
    (hturn : (hearings sender).Always (fun h e => h.inTurn e = true) es) : h.InOrder := by
  have hsound : h.Sound sender := TransitionSystem.run_invariant sound_init
    (fun s e s' hs hc hstep => hs.step hc.1 hc.2 hstep) (hroom.and hturn) hrun
  exact hsound.ordered.inOrder

/-! ### one term after another, and two at once -/

/-- Tab 1 holds the port in term 7 and then in term 8; each term is over before the next is heard
of. -/
def termAfterTerm : List HearingEvent :=
  [.arrives ⟨7, 1, .infinity⟩ ⟨1, .all, .ownerClaimed 7 .infinity⟩,
    .arrives ⟨7, 1, .infinity⟩ ⟨1, .all, .dataReceived [65] none⟩,
    .checkAnswered 0 .held, .watchAnswered 0 false,
    .arrives ⟨8, 1, .infinity⟩ ⟨1, .all, .ownerClaimed 8 .infinity⟩,
    .checkAnswered 4 .held,
    .arrives ⟨8, 1, .infinity⟩ ⟨1, .all, .dataReceived [66] none⟩]

theorem applied_in_order_termAfterTerm :
    ∃ h, (hearings 1).run termAfterTerm = some h ∧ h.InOrder := by
  obtain ⟨h, hrun⟩ :=
    Option.isSome_iff_exists.mp (show ((hearings 1).run termAfterTerm).isSome = true by decide)
  exact ⟨h, hrun, applied_in_order hrun (TransitionSystem.always_of_alwaysFrom hasRoom (by decide))
    (TransitionSystem.always_of_alwaysFrom inTurn (by decide))⟩

/-- The receiving tab hears of both terms before the first check is answered, and of data of the
second. -/
def twoTermsAtOnce : List HearingEvent :=
  [.arrives ⟨7, 1, .infinity⟩ ⟨1, .all, .ownerClaimed 7 .infinity⟩,
    .arrives ⟨7, 1, .infinity⟩ ⟨1, .all, .ownerReleased 7⟩,
    .arrives ⟨8, 1, .infinity⟩ ⟨1, .all, .ownerClaimed 8 .infinity⟩,
    .arrives ⟨8, 1, .infinity⟩ ⟨1, .all, .dataReceived [66] none⟩,
    .checkAnswered 0 .free, .checkAnswered 2 .held]

/-- The data of the second term waits for the check of the first, and is lost with it. -/
theorem not_applied_in_order : ¬ ∀ (es : List HearingEvent) (h : Hearing),
      (hearings 1).run es = some h →
    (hearings 1).Always (fun h e => h.hasRoom e = true) es → h.InOrder := by
  intro hall
  obtain ⟨h, hrun, happlied, hheld, hdata⟩ : ∃ h, (hearings 1).run twoTermsAtOnce = some h ∧
      h.applied = [⟨1, .all, .ownerClaimed 8 .infinity⟩] ∧ ⟨8, 1, .infinity⟩ ∈ h.foundHeld ∧
      (h.deviceMessages ⟨8, 1, .infinity⟩).map Prod.snd = [⟨1, .all, .dataReceived [66] none⟩] :=
    ⟨_, rfl, by decide, by decide, by decide⟩
  obtain ⟨applied, hmap, -, hfound⟩ :=
    hall twoTermsAtOnce h hrun (TransitionSystem.always_of_alwaysFrom hasRoom (by decide))
  have hsub := (hfound _ hheld).map Prod.snd
  rw [hmap, happlied, hdata] at hsub
  exact absurd hsub (by decide)

end Hearing

end SerialBroker
