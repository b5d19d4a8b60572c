import SerialBroker.Lib.KeyedList
import SerialBroker.Protocol.Messages

/-!
# The writes a holder has accepted

`AcceptedWrites` as `client/accepted-writes.ts` computes it: the requests of one term that are being
written, and the outcomes of those that ended, the oldest first. A request is known by the tab that
issued it and its id.
-/

namespace SerialBroker

/-- How many outcomes are remembered. -/
def maxRememberedFinishedWrites : Nat := 1024

/-- A request: the tab that issued it, and its id there. -/
structure WriteKey where
  origin : ClientId
  requestId : RequestId
  deriving DecidableEq

/-- How a write ended: not at all in an error is success. -/
abbrev WriteOutcome := Option SerialBrokerError

def WriteOutcome.isNotConnected (outcome : WriteOutcome) : Bool :=
  outcome.map SerialBrokerError.code = some .NOT_CONNECTED

structure FinishedWrite where
  key : WriteKey
  outcome : WriteOutcome
  deriving DecidableEq

structure AcceptedWrites where
  inProgress : List WriteKey
  finished : List FinishedWrite
  deriving DecidableEq

/-- What to do with a request. -/
inductive Admission
  | new
  | inProgress
  | finished (outcome : WriteOutcome)
  deriving DecidableEq

namespace AcceptedWrites

def empty : AcceptedWrites := ⟨[], []⟩

def isKnown (a : AcceptedWrites) (key : WriteKey) : Bool :=
  key ∈ a.inProgress ∨ (KeyedList.lookup FinishedWrite.key key a.finished).isSome

def admitWrite (a : AcceptedWrites) (key : WriteKey) : AcceptedWrites × Admission :=
  if key ∈ a.inProgress then (a, .inProgress)
  else match KeyedList.lookup FinishedWrite.key key a.finished with
    | some write => (a, .finished write.outcome)
    | none => ({ a with inProgress := a.inProgress ++ [key] }, .new)

/-- The finished writes without the oldest, if there are too many. -/
def forgetOldest (finished : List FinishedWrite) : List FinishedWrite :=
  if finished.length > maxRememberedFinishedWrites then finished.tail else finished

def finish (a : AcceptedWrites) (key : WriteKey) (outcome : WriteOutcome) : AcceptedWrites :=
  let inProgress := a.inProgress.filter (· ≠ key)
  if outcome.isNotConnected then { a with inProgress }
  else
    { inProgress
      finished := forgetOldest (KeyedList.put FinishedWrite.key ⟨key, outcome⟩ a.finished) }

end AcceptedWrites

end SerialBroker
