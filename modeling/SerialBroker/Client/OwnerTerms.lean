import SerialBroker.Lib.KeyedList
import SerialBroker.Protocol.Messages

/-!
# What one tab knows about the terms of holding a port

`OwnerTerms` as `client/owner-terms.ts` computes it. Each method takes the state to the next one and
lists, in order, what it did outside: a message applied, a lock requested or a request withdrawn, an
end reported. A method of the source calls its host as the last thing it does with the state, and
nothing the host does from there changes the terms but `dispose`, after which every closure still
waiting returns at once; so the list is what happened, cut off where the session disposed of the
terms.

An entry's `key` is its identity as an object: a lock answer concerns the entry that asked, and not
one that was put under the same term since. The closures that wait for a check are the three the
source pushes.
-/

namespace SerialBroker

/-- How many terms a tab keeps, and how many messages wait for one term's check. -/
def maxTermFlood : Nat := 16

abbrev EntryId := Nat

/-- What a message says about the term it speaks for; `sender` is the field `from`. -/
structure TermClaim where
  term : TermId
  sender : ClientId
  maxTabs : MaxTabs
  deriving DecidableEq

inductive TermPhase
  | checking | live | ended | refused
  deriving DecidableEq

/-- The answer to the check of a term's lock. -/
inductive CheckAnswer
  | held | free | unknown
  deriving DecidableEq

/-- A closure that waits for the check of a term. -/
inductive Waiting
  | observe (claim : TermClaim) (message : ProtocolMessage)
  | heardReleased (term : TermId) (sender : ClientId)
  | authorize (message : ProtocolMessage)
  deriving DecidableEq

/-- What a tab knows about one term. -/
structure KnownTerm where
  key : EntryId
  claim : TermClaim
  phase : TermPhase
  isOwn : Bool
  isSucceeded : Bool
  isEnding : Bool
  hasHeardGoodbye : Bool
  waiting : List Waiting
  deriving DecidableEq

/-- The term an entry is kept under. -/
abbrev KnownTerm.term (entry : KnownTerm) : TermId := entry.claim.term

/-- What the terms did outside themselves. -/
inductive TermEffect
  | apply (message : ProtocolMessage)
  | check (key : EntryId) (claim : TermClaim)
  | watch (key : EntryId) (claim : TermClaim)
  | abort (key : EntryId)
  | ended (key : EntryId) (term : TermId) (wasCurrent : Bool)
  deriving DecidableEq

@[ext]
structure OwnerTerms where
  terms : List KnownTerm
  current : Option TermId
  isDisposed : Bool
  deriving DecidableEq

namespace OwnerTerms

def empty : OwnerTerms := ⟨[], none, false⟩

/-- `terms.get(term)`. -/
def get? (s : OwnerTerms) (term : TermId) : Option KnownTerm :=
  KeyedList.lookup KnownTerm.term term s.terms

/-- The entry with this identity, if it is still the one kept under its term. -/
def entryOf? (s : OwnerTerms) (key : EntryId) : Option KnownTerm :=
  KeyedList.lookup KnownTerm.key key s.terms

/-- Assigns to fields of the entry with this identity. -/
def modify (s : OwnerTerms) (key : EntryId) (f : KnownTerm → KnownTerm) : OwnerTerms :=
  { s with terms := KeyedList.adjust KnownTerm.key key f s.terms }

def isEnded (s : OwnerTerms) (term : TermId) : Bool :=
  match s.get? term with
  | some entry => entry.phase = .ended
  | none => false

def newEntry (key : EntryId) (claim : TermClaim) (phase : TermPhase) (isOwn : Bool) : KnownTerm :=
  { key, claim, phase, isOwn, isSucceeded := false, isEnding := false, hasHeardGoodbye := false,
    waiting := [] }

/-- Whether `sender` is the context that speaks for `term`, whatever state that term is in. -/
def isFrom (s : OwnerTerms) (term : TermId) (sender : ClientId) : Bool :=
  match s.get? term with
  | some entry => entry.phase ≠ .refused ∧ entry.claim.sender = sender
  | none => false

/-- Whether `sender` speaks for a term whose lock is known to be held. -/
def speaksForLiveTerm (s : OwnerTerms) (sender : ClientId) : Bool :=
  s.terms.any fun entry => entry.claim.sender = sender ∧ entry.phase = .live

/-- The term `sender` speaks for whose lock is still being checked. -/
def checkedTermOf (s : OwnerTerms) (sender : ClientId) : Option KnownTerm :=
  s.terms.find? fun entry => entry.claim.sender = sender ∧ entry.phase = .checking

/-- Drops everything the tab held about a term. -/
def forget (s : OwnerTerms) (entry : KnownTerm) : OwnerTerms × List TermEffect :=
  ({ s with terms := KeyedList.erase KnownTerm.term entry.term s.terms }, [.abort entry.key])

/-- The entry a full memory gives up: one that is over, or else a check, or else one that is not
current. -/
def oldest (s : OwnerTerms) : Option KnownTerm :=
  (s.terms.find? fun known => known.phase = .ended ∨ known.phase = .refused).or <|
  (s.terms.find? fun known => known.phase = .checking).or <|
  s.terms.find? fun known => some known.term ≠ s.current

/-- The loop of `#remember`; each round forgets one entry, so there are at most as many as
entries. -/
def shrink : Nat → OwnerTerms → OwnerTerms × List TermEffect
  | 0, s => (s, [])
  | rounds + 1, s =>
    if s.terms.length ≤ maxTermFlood then (s, [])
    else match s.oldest with
      | none => (s, [])
      | some entry =>
        let forgotten := s.forget entry
        let rest := shrink rounds forgotten.1
        (rest.1, forgotten.2 ++ rest.2)

def remember (s : OwnerTerms) (entry : KnownTerm) : OwnerTerms × List TermEffect :=
  let terms := KeyedList.put KnownTerm.term entry s.terms
  shrink terms.length { s with terms }

def makeCurrent (s : OwnerTerms) (entry : KnownTerm) : OwnerTerms :=
  if s.current = some entry.term then s
  else
    let succeeded := match s.current with
      | some previous =>
        KeyedList.adjust KnownTerm.term previous (fun known =>
          { known with isSucceeded := true }) s.terms
      | none => s.terms
    { s with terms := succeeded, current := some entry.term }

def waitFor (s : OwnerTerms) (entry : KnownTerm) (run : Waiting) : OwnerTerms :=
  if entry.waiting.length ≥ maxTermFlood then s
  else s.modify entry.key fun known => { known with waiting := known.waiting ++ [run] }

/-- `#end`. -/
def endTerm (s : OwnerTerms) (entry : KnownTerm) : OwnerTerms × List TermEffect :=
  if entry.phase = .ended then (s, [])
  else
    let wasCurrent := s.current = some entry.term
    let s := s.modify entry.key fun known => { known with phase := .ended, waiting := [] }
    ({ s with current := if wasCurrent then none else s.current },
      [.abort entry.key, .ended entry.key entry.term wasCurrent])

def startChecking (s : OwnerTerms) (key : EntryId) (claim : TermClaim) (message : ProtocolMessage) :
    OwnerTerms × List TermEffect :=
  let entry := { newEntry key claim .checking false with waiting := [.observe claim message] }
  let remembered := s.remember entry
  (remembered.1, remembered.2 ++ [.check key claim])

/-- A claim or a status arrived. -/
def observe (s : OwnerTerms) (key : EntryId) (claim : TermClaim) (message : ProtocolMessage) :
    OwnerTerms × List TermEffect :=
  if s.isDisposed then (s, [])
  else match s.get? claim.term with
    | none => s.startChecking key claim message
    | some entry =>
      if entry.phase = .refused ∨ entry.phase = .ended ∨ ¬ entry.claim = claim then (s, [])
      else if entry.phase = .checking then (s.waitFor entry (.observe claim message), [])
      else if entry.isSucceeded then (s, [])
      else (s.makeCurrent entry, [.apply message])

/-- `owner-released` of `term` arrived from `sender`. -/
def heardReleased (s : OwnerTerms) (term : TermId) (sender : ClientId) :
    OwnerTerms × List TermEffect :=
  match s.get? term with
  | none => (s, [])
  | some entry =>
    if ¬ entry.claim.sender = sender then (s, [])
    else if entry.phase = .checking then (s.waitFor entry (.heardReleased term sender), [])
    else if entry.phase ≠ .live ∨ entry.isOwn then (s, [])
    else
      let heard := s.modify entry.key fun known => { known with hasHeardGoodbye := true }
      if entry.isEnding then heard.endTerm entry else (heard, [])

/-- Decides whether a message from another context may be believed, and applies it if it may. -/
def authorize (s : OwnerTerms) (key : EntryId) (message : ProtocolMessage) :
    OwnerTerms × List TermEffect :=
  if s.isDisposed then (s, [])
  else match message.body with
    | .ownerClaimed term maxTabs | .status _ maxTabs term =>
      s.observe key ⟨term, message.sender, maxTabs⟩ message
    | .ownerReleased term => s.heardReleased term message.sender
    | .writeReady _ term _ | .writeResult _ _ _ (some term) =>
      if s.isFrom term message.sender then (s, [.apply message]) else (s, [])
    | .writeResult _ _ _ none => (s, [])
    | .dataReceived .. | .dataSent .. | .error _ =>
      if s.speaksForLiveTerm message.sender then (s, [.apply message])
      else match s.checkedTermOf message.sender with
        | some checking => (s.waitFor checking (.authorize message), [])
        | none => (s, [])
    | .writeRequest .. | .writeApproval .. | .statusRequest _ => (s, [.apply message])

def runWaiting (s : OwnerTerms) (key : EntryId) : Waiting → OwnerTerms × List TermEffect
  | .observe claim message => s.observe key claim message
  | .heardReleased term sender => s.heardReleased term sender
  | .authorize message => s.authorize key message

/-- Runs the closures that waited, in the order they came. -/
def runAll (s : OwnerTerms) (key : EntryId) : List Waiting → OwnerTerms × List TermEffect
  | [] => (s, [])
  | run :: runs =>
    let first := s.runWaiting key run
    let rest := first.1.runAll key runs
    (rest.1, first.2 ++ rest.2)

/-- The check of the entry `key` was answered. -/
def checkAnswered (s : OwnerTerms) (id key : EntryId) (answer : CheckAnswer) :
    OwnerTerms × List TermEffect :=
  match s.entryOf? key with
  | none => (s, [])
  | some entry =>
    if entry.phase ≠ .checking then (s, [])
    else match answer with
      | .unknown => s.forget entry
      | .free => (s.modify key fun known => { known with phase := .refused, waiting := [] }, [])
      | .held =>
        let live := s.modify key fun known => { known with phase := .live, waiting := [] }
        let replayed := live.runAll id entry.waiting
        (replayed.1, .watch key entry.claim :: replayed.2)

/-- The rest of the watch's callback, once the locks were listed while its grant is held. -/
def watchAnswered (s : OwnerTerms) (key : EntryId) (isEnding : Bool) :
    OwnerTerms × List TermEffect :=
  match s.entryOf? key with
  | none => (s, [])
  | some entry =>
    if entry.phase ≠ .live then (s, [])
    else if isEnding ∧ ¬ entry.hasHeardGoodbye then
      (s.modify key fun known => { known with isEnding := true }, [])
    else s.endTerm entry

/-- This tab has been granted the port, and holds the claim's lock itself. -/
def takeOwn (s : OwnerTerms) (key : EntryId) (claim : TermClaim) : OwnerTerms × List TermEffect :=
  let entry := newEntry key claim .live true
  let remembered := s.remember entry
  (remembered.1.makeCurrent entry, remembered.2)

/-- This tab has let go of the port. -/
def endOwn (s : OwnerTerms) (term : TermId) : OwnerTerms × List TermEffect :=
  match s.get? term with
  | none => (s, [])
  | some entry => s.endTerm entry

/-- Withdraws every outstanding lock request. -/
def dispose (s : OwnerTerms) : OwnerTerms × List TermEffect :=
  (⟨[], none, true⟩, s.terms.map fun entry => .abort entry.key)

end OwnerTerms

/-- What reaches the terms of one tab: a message, an answer of the lock manager, or a step of its
own session. -/
inductive TermInput
  | message (message : ProtocolMessage)
  | checkAnswered (key : EntryId) (answer : CheckAnswer)
  | watchAnswered (key : EntryId) (isEnding : Bool)
  | takeOwn (claim : TermClaim)
  | endOwn (term : TermId)
  | dispose
  deriving DecidableEq

/-- One input handled; an entry it creates gets the identity `id`. -/
def OwnerTerms.handle (s : OwnerTerms) (id : EntryId) : TermInput → OwnerTerms × List TermEffect
  | .message message => s.authorize id message
  | .checkAnswered key answer => s.checkAnswered id key answer
  | .watchAnswered key isEnding => s.watchAnswered key isEnding
  | .takeOwn claim => s.takeOwn id claim
  | .endOwn term => s.endOwn term
  | .dispose => s.dispose

end SerialBroker
