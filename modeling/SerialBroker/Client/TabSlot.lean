import SerialBroker.Lib.TransitionSystem
import SerialBroker.Lib.WebLocks

/-!
# The places of a tab limit

A configuration with a finite `maxTabs` has as many places, each a Web Lock. Web Locks cannot wait
for any one of several locks, so a tab first queues at the gate, a lock of its own, and while it
holds the gate requests every place at once: it keeps the first place it is granted, withdraws the
other requests and lets the gate go. This module follows `TabSlot` in every tab, over the lock
manager: a request may be granted before the tab runs its callback, withdrawn after it was aborted,
or refused. `onAcquired` may call `stop()`. A session starts its slot once.

`grants` counts the grants of the gate and `grantOf` is the number of a tab's last one; `acquired`
lists the calls of `onAcquired`.
-/

namespace SerialBroker

variable {τ : Type*}

/-- How far the `HeldLock` of the gate has come. -/
inductive GateStage where
  | idle
  | requested
  /-- The browser refused the request, or every place, and the pause before the next request has not
  passed. -/
  | refused
  /-- The gate is held; the callback has not run yet. -/
  | granted
  /-- `#takePlace` waits for a place. -/
  | taking
  /-- `#takePlace` has settled, with a failure or without. -/
  | left (hasFailed : Bool)
  deriving DecidableEq

/-- How far a request for one of the places has come. -/
inductive PlaceStage where
  /-- Not requested, or ended without a failure. -/
  | idle
  | requested
  /-- The place is held; the callback has not run yet. -/
  | granted
  | kept
  /-- The callback has returned. -/
  | returned
  | refused
  deriving DecidableEq

/-- One tab's `TabSlot`. -/
structure SlotTab where
  isAlive : Bool
  isStarted : Bool
  isStopped : Bool
  isHeld : Bool
  gate : GateStage
  place : ℕ → PlaceStage

/-- The tabs of a configuration, its gate and its places. -/
structure TabLimit (τ : Type*) where
  gate : WebLock τ
  place : ℕ → WebLock τ
  tab : τ → SlotTab
  grants : ℕ
  grantOf : τ → ℕ
  acquired : List τ

inductive SlotEvent (τ : Type*) where
  | start (tab : τ)
  | stop (tab : τ)
  | gateGranted (tab : τ)
  | gateEntered (tab : τ)
  | gateWithdrawn (tab : τ)
  | gateRefused (tab : τ)
  | gateRetried (tab : τ)
  | gateLetGo (tab : τ)
  | placeGranted (tab : τ) (place : ℕ)
  /-- The callback of the place runs; if `onAcquired` is called, it may call `stop()`. -/
  | placeEntered (tab : τ) (place : ℕ) (stops : Bool)
  | placeWithdrawn (tab : τ) (place : ℕ)
  | placeRefused (tab : τ) (place : ℕ)
  | placeLetGo (tab : τ) (place : ℕ)
  | crash (tab : τ)
  deriving DecidableEq

def PlaceStage.isSettled : PlaceStage → Bool
  | .idle | .refused => true
  | .requested | .granted | .kept | .returned => false

namespace SlotTab

def fresh : SlotTab := ⟨true, false, false, false, .idle, fun _ => .idle⟩

def crashed : SlotTab := { fresh with isAlive := false }

/-- `placeAbort` is aborted when a place is kept, and in `stop()`. -/
def isAborted (tab : SlotTab) : Bool := tab.isHeld || tab.isStopped

def setPlace (tab : SlotTab) (place : ℕ) (stage : PlaceStage) : SlotTab :=
  { tab with place := Function.update tab.place place stage }

/-- `leaveGate`, which does nothing where `#takePlace` does not wait. -/
def leaveGate (tab : SlotTab) (hasFailed : Bool) : SlotTab :=
  if tab.gate = .taking then { tab with gate := .left hasFailed } else tab

/-- `stop()`: a held place is let go, and so is the gate; a gate not requested is not requested
again. -/
def stop (tab : SlotTab) : SlotTab :=
  if tab.isStopped then tab
  else { (tab.leaveGate false) with
    isStopped := true
    isHeld := false
    gate := if tab.gate = .refused then .idle else (tab.leaveGate false).gate
    place := fun place => if tab.place place = .kept then .returned else tab.place place }

/-- What follows the end of a request for a place: the last of them lets the gate go, if no place is
held. -/
def settle (maxTabs : ℕ) (tab : SlotTab) : SlotTab :=
  if ((List.range maxTabs).all fun place => (tab.place place).isSettled) && !tab.isHeld then
    tab.leaveGate (((List.range maxTabs).any fun place => tab.place place = .refused) &&
      !tab.isStopped)
  else tab

/-- `#takePlace`, up to its wait. -/
def takePlace (maxTabs : ℕ) (tab : SlotTab) : SlotTab :=
  { tab with
    gate := .taking
    place := fun place => if place < maxTabs then .requested else tab.place place }

/-- The first place whose callback runs is kept. -/
def keepPlace (tab : SlotTab) (place : ℕ) : SlotTab :=
  { (tab.setPlace place .kept).leaveGate false with isHeld := true }

end SlotTab

namespace TabLimit

variable [DecidableEq τ]

def setTab (s : TabLimit τ) (t : τ) (tab : SlotTab) : TabLimit τ :=
  { s with tab := Function.update s.tab t tab }

def setPlaceLock (s : TabLimit τ) (place : ℕ) (lock : WebLock τ) : TabLimit τ :=
  { s with place := Function.update s.place place lock }

/-- The gate is requested, by `start()` or after the pause. -/
def requestGate (s : TabLimit τ) (t : τ) (tab : SlotTab) : TabLimit τ :=
  { s.setTab t { tab with gate := .requested } with gate := s.gate.request ⟨t, true⟩ }

/-- The callback of the gate, up to its wait. -/
def enterGate (s : TabLimit τ) (maxTabs : ℕ) (t : τ) : TabLimit τ :=
  if (s.tab t).isStopped then s.setTab t { s.tab t with gate := .left false }
  else { s.setTab t ((s.tab t).takePlace maxTabs) with
    place := fun place => if place < maxTabs then (s.place place).request ⟨t, true⟩
      else s.place place }

/-- The callback of a place. -/
def enterPlace (s : TabLimit τ) (t : τ) (place : ℕ) (stops : Bool) : TabLimit τ :=
  if (s.tab t).isAborted then s.setTab t ((s.tab t).setPlace place .returned)
  else { s.setTab t (if stops then ((s.tab t).keepPlace place).stop
      else (s.tab t).keepPlace place) with
    acquired := s.acquired ++ [t] }

/-- What the event makes of the tabs, where it can happen. -/
def step (maxTabs : ℕ) (s : TabLimit τ) : SlotEvent τ → Option (TabLimit τ)
  | .start t =>
    if (s.tab t).isAlive && !(s.tab t).isStarted then
      if (s.tab t).isStopped then some (s.setTab t { s.tab t with isStarted := true })
      else some (s.requestGate t { s.tab t with isStarted := true })
    else none
  | .stop t => if (s.tab t).isAlive then some (s.setTab t (s.tab t).stop) else none
  | .gateGranted t =>
    if (s.tab t).gate = .requested then
      (s.gate.grant t).map fun lock =>
        { s.setTab t { s.tab t with gate := .granted } with
          gate := lock, grants := s.grants + 1, grantOf :=
            Function.update s.grantOf t (s.grants + 1) }
    else none
  | .gateEntered t => if (s.tab t).gate = .granted then some (s.enterGate maxTabs t) else none
  | .gateWithdrawn t =>
    if (s.tab t).gate = .requested && (s.tab t).isStopped then
      some { s.setTab t { s.tab t with gate := .idle } with gate := s.gate.withdraw t }
    else none
  | .gateRefused t =>
    if (s.tab t).gate = .requested then
      some { s.setTab t { s.tab t with
        gate := if (s.tab t).isStopped then .idle else .refused } with gate := s.gate.withdraw t }
    else none
  | .gateRetried t => if (s.tab t).gate = .refused then some (s.requestGate t (s.tab t)) else none
  | .gateLetGo t =>
    match (s.tab t).gate with
    | .left hasFailed =>
      some { s.setTab t
        { s.tab t with gate := if hasFailed && !(s.tab t).isStopped then .refused else .idle } with
        gate := s.gate.letGo t }
    | _ => none
  | .placeGranted t place =>
    if (s.tab t).place place = .requested then
      ((s.place place).grant t).map fun lock =>
        (s.setTab t ((s.tab t).setPlace place .granted)).setPlaceLock place lock
    else none
  | .placeEntered t place stops =>
    if (s.tab t).place place = .granted then some (s.enterPlace t place stops) else none
  | .placeWithdrawn t place =>
    if (s.tab t).place place = .requested && (s.tab t).isAborted then
      some ((s.setTab t (((s.tab t).setPlace place .idle).settle maxTabs)).setPlaceLock place
        ((s.place place).withdraw t))
    else none
  | .placeRefused t place =>
    if (s.tab t).place place = .requested then
      some ((s.setTab t (((s.tab t).setPlace place .refused).settle maxTabs)).setPlaceLock place
        ((s.place place).withdraw t))
    else none
  | .placeLetGo t place =>
    if (s.tab t).place place = .returned then
      some ((s.setTab t (((s.tab t).setPlace place .idle).settle maxTabs)).setPlaceLock place
        ((s.place place).letGo t))
    else none
  | .crash t =>
    if (s.tab t).isAlive then
      some { s.setTab t .crashed with
        gate := s.gate.drop fun other => decide (other = t)
        place := fun place => (s.place place).drop fun other => decide (other = t) }
    else none

/-- The tabs of a configuration with this limit, none of them started. -/
def system (maxTabs : ℕ) : TransitionSystem (TabLimit τ) (SlotEvent τ) where
  init := ⟨.free, fun _ => .free, fun _ => .fresh, 0, fun _ => 0, []⟩
  step := step maxTabs

end TabLimit

end SerialBroker
