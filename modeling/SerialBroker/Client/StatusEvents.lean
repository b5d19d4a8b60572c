import Mathlib.Data.List.Nodup
import Mathlib.Data.Nat.Notation
import SerialBroker.Lib.TransitionSystem
import SerialBroker.Protocol.Messages

/-!
# Status events

`#setStatus` of a session and the dispatch of `onStatusChange` in `EventEmitter.emit`, with the
status of the supervisor behind it. A dispatch calls the listeners of a snapshot one after another;
whatever a listener calls runs before the dispatch goes on, so a dispatch inside another one runs to
its end first. Code outside the emitter runs where no dispatch is going on or inside a listener's
call, and a call that throws returns.

`history` is not in the source, nor what a registration heard and since when it is there; they
number the changes and record who was told of them.
-/

namespace SerialBroker

abbrev ListenerId := ℕ

/-- An event that reports a change; `number` says which one. -/
structure StatusChange where
  number : ℕ
  status : SerialBrokerStatus
  previousStatus : SerialBrokerStatus
  deriving DecidableEq

structure StatusListener where
  listener : ListenerId
  /-- The last change before it was registered, and the status then. -/
  since : ℕ
  registeredAt : SerialBrokerStatus
  heard : List StatusChange
  deriving DecidableEq

structure Dispatch where
  change : StatusChange
  /-- What is left of the snapshot. -/
  rest : List ListenerId
  isCalling : Bool
  deriving DecidableEq

structure SupervisorStatus where
  /-- The state is `failed` or `awaiting-permission`. -/
  gaveUp : Bool
  status : SerialBrokerStatus
  deriving DecidableEq

structure StatusSession where
  status : SerialBrokerStatus
  isReleased : Bool
  isWithdrawn : Bool
  supervisor : Option SupervisorStatus
  listeners : List StatusListener
  /-- The dispatches going on, the innermost first. -/
  dispatches : List Dispatch
  history : List SerialBrokerStatus
  deriving DecidableEq

namespace StatusSession

def idle : StatusSession where
  status := .idle
  isReleased := false
  isWithdrawn := false
  supervisor := none
  listeners := []
  dispatches := []
  history := [.idle]

/-- `ConfigurationSession.#setStatus`, up to the first listener. -/
def setStatus (s : StatusSession) (status : SerialBrokerStatus) : StatusSession :=
  if s.status = status ∨ s.isReleased ∧ status ≠ .released then s
  else
    { s with
      status
      history := s.history ++ [status]
      dispatches :=
        if s.listeners = [] then s.dispatches
        else ⟨⟨s.history.length, status, s.status⟩, s.listeners.map StatusListener.listener, false⟩
          :: s.dispatches }

/-- `EventEmitter.add`. -/
def subscribe (s : StatusSession) (listener : ListenerId) : StatusSession :=
  if listener ∈ s.listeners.map StatusListener.listener then s
  else { s with listeners := s.listeners ++ [⟨listener, s.history.length - 1, s.status, []⟩] }

/-- `EventEmitter.remove`. -/
def unsubscribe (s : StatusSession) (listener : ListenerId) : StatusSession :=
  { s with listeners := s.listeners.filter (·.listener ≠ listener) }

/-- `PortSupervisor.#setStatus` with the session's `onStatus`, right after the supervisor has
entered a state. -/
def supervisorEnters (s : StatusSession) (gaveUp : Bool) (status : SerialBrokerStatus) :
    StatusSession :=
  match s.supervisor with
  | none => s
  | some supervisor =>
    let entered := { s with supervisor := some ⟨gaveUp, status⟩ }
    if supervisor.status = status then entered else entered.setStatus status

/-- What `setup()` of a configuration that is set up does: `ConfigurationSession.retry`, with
`PortSupervisor.retry`. -/
def retry (s : StatusSession) : StatusSession :=
  if s.isWithdrawn then s
  else
    match s.supervisor with
    | none => s
    | some supervisor => if supervisor.gaveUp then s.supervisorEnters false .connecting else s

/-- `release()` up to its first `await`. -/
def release (s : StatusSession) : StatusSession :=
  if s.isReleased then s else { s with isReleased := true, supervisor := none }

def withdraw (s : StatusSession) : StatusSession := { s with isWithdrawn := true }.setStatus .failed

/-- The next listener of the innermost dispatch is told, if it is still registered; where none is
left the dispatch ends. -/
def callNext (s : StatusSession) : Option StatusSession :=
  match s.dispatches with
  | [] => none
  | dispatch :: outer =>
    if dispatch.isCalling then none
    else
      match dispatch.rest with
      | [] => some { s with dispatches := outer }
      | listener :: rest =>
        some
          { s with
            listeners := s.listeners.map fun r => if r.listener = listener then
              { r with heard := r.heard ++ [dispatch.change] }
            else r
            dispatches := { dispatch with
              rest
              isCalling := listener ∈ s.listeners.map StatusListener.listener } :: outer }

/-- The listener the innermost dispatch has called returns, or what it threw has been reported. -/
def returns (s : StatusSession) : Option StatusSession :=
  match s.dispatches with
  | [] => none
  | dispatch :: outer =>
    if dispatch.isCalling then
      some { s with dispatches := { dispatch with isCalling := false } :: outer }
    else none

/-- Code outside the emitter can run. -/
def canRun (s : StatusSession) : Bool := s.dispatches.head?.all Dispatch.isCalling

end StatusSession

inductive StatusEvent
  | subscribe (listener : ListenerId)
  | unsubscribe (listener : ListenerId)
  | setup
  /-- Before their first `await` these two change no status. -/
  | requestAccess
  | send
  | release
  /-- From `start`, `#join`, `#applyStatus`, a term that ends, and the end of `release()`. -/
  | setStatus (status : SerialBrokerStatus)
  | withdraw
  | startTerm
  | stopBeingOwner
  | supervisorEnters (gaveUp : Bool) (status : SerialBrokerStatus)
  /-- `EventEmitter.clear`. -/
  | clear
  | callNext
  | returns
  deriving DecidableEq

namespace StatusSession

/-- What the code outside the emitter does. -/
def perform (s : StatusSession) : StatusEvent → StatusSession
  | .subscribe listener => s.subscribe listener
  | .unsubscribe listener => s.unsubscribe listener
  | .setup => s.retry
  | .release => s.release
  | .setStatus status => s.setStatus status
  | .withdraw => s.withdraw
  | .startTerm => { s with supervisor := some ⟨false, .idle⟩ }
  | .stopBeingOwner => { s with supervisor := none }
  | .supervisorEnters gaveUp status => s.supervisorEnters gaveUp status
  | .clear => { s with listeners := [] }
  | .requestAccess | .send | .callNext | .returns => s

def step (s : StatusSession) : StatusEvent → Option StatusSession
  | .callNext => s.callNext
  | .returns => s.returns
  | event => if s.canRun then some (s.perform event) else none

end StatusSession

def statusSession : TransitionSystem StatusSession StatusEvent where
  init := .idle
  step := StatusSession.step

/-! ### chains -/

/-- Each change is a later one than the one before, and comes from its status. -/
def ChainFrom (number : ℕ) (status : SerialBrokerStatus) : List StatusChange → Prop
  | [] => True
  | change :: changes =>
    number < change.number ∧ change.previousStatus = status ∧
      ChainFrom change.number change.status changes

/-- The number and the status a chain ends with. -/
def chainEnd (number : ℕ) (status : SerialBrokerStatus) : List StatusChange → ℕ × SerialBrokerStatus
  | [] => (number, status)
  | change :: changes => chainEnd change.number change.status changes

instance decidableChainFrom (number : ℕ) (status : SerialBrokerStatus) :
    (changes : List StatusChange) → Decidable (ChainFrom number status changes)
  | [] => .isTrue trivial
  | change :: changes =>
    have := decidableChainFrom change.number change.status changes
    inferInstanceAs (Decidable (_ ∧ _ ∧ ChainFrom change.number change.status changes))

/-- What the listener knows: the last change it was told of, or that there was when it was
registered. -/
def StatusListener.last (r : StatusListener) : ℕ × SerialBrokerStatus :=
  chainEnd r.since r.registeredAt r.heard

namespace StatusSession

/-- Every listener hears a chain of changes, which ends with the current status once no dispatch is
running. -/
def HearsChain (s : StatusSession) : Prop :=
  ∀ r ∈ s.listeners, ChainFrom r.since r.registeredAt r.heard ∧
    (s.dispatches = [] → r.last.2 = s.status)

instance (s : StatusSession) : Decidable s.HearsChain :=
  inferInstanceAs (Decidable (∀ r ∈ s.listeners, ChainFrom r.since r.registeredAt r.heard ∧
    (s.dispatches = [] → r.last.2 = s.status)))

end StatusSession

/-- The dispatch is still to tell the listener, which was there before the change. -/
def Dispatch.owes (dispatch : Dispatch) (r : StatusListener) : Bool :=
  decide (r.listener ∈ dispatch.rest) && decide (r.since < dispatch.change.number)

namespace StatusSession

/-- Whom the innermost dispatch calls next, a dispatch it interrupted still has to tell, or was
registered after the change. -/
def overtakes (s : StatusSession) : Bool :=
  match s.dispatches with
  | [] => false
  | dispatch :: outer =>
    s.listeners.any fun r =>
      decide (dispatch.rest.head? = some r.listener) &&
        (!dispatch.owes r || outer.any fun interrupted => interrupted.owes r)

/-! ### no listener is overtaken -/

/-- What is known of a registration. -/
structure Told (s : StatusSession) (r : StatusListener) : Prop where
  chain : ChainFrom r.since r.registeredAt r.heard
  last : s.history[r.last.1]? = some r.last.2
  owed : ∀ n, r.last.1 < n → n < s.history.length → ∃ d ∈ s.dispatches, d.change.number = n ∧
    r.listener ∈ d.rest
  due : ∀ d ∈ s.dispatches, d.owes r = true → r.last.1 < d.change.number

structure Sound (s : StatusSession) : Prop where
  status : s.history[s.history.length - 1]? = some s.status
  distinct : (s.listeners.map StatusListener.listener).Nodup
  nested : s.dispatches.Pairwise fun inner outer => outer.change.number < inner.change.number
  rests : ∀ d ∈ s.dispatches, d.rest.Nodup
  changes : ∀ d ∈ s.dispatches, 0 < d.change.number ∧
    s.history[d.change.number - 1]? = some d.change.previousStatus ∧
    s.history[d.change.number]? = some d.change.status
  told : ∀ r ∈ s.listeners, Told s r

end StatusSession

theorem chainFrom_concat {number : ℕ} {status : SerialBrokerStatus} {changes : List StatusChange}
    {change : StatusChange} :
    ChainFrom number status (changes ++ [change]) ↔
      ChainFrom number status changes ∧ (chainEnd number status changes).1 < change.number ∧
        change.previousStatus = (chainEnd number status changes).2 := by
  induction changes generalizing number status with
  | nil => simp [ChainFrom, chainEnd]
  | cons head changes ih => simp only [List.cons_append, ChainFrom, chainEnd, ih, and_assoc]

theorem chainEnd_concat (number : ℕ) (status : SerialBrokerStatus) (changes : List StatusChange)
    (change : StatusChange) :
    chainEnd number status (changes ++ [change]) = (change.number, change.status) := by
  induction changes generalizing number status with
  | nil => rfl
  | cons head changes ih => exact ih ..

theorem ChainFrom.le_end {number : ℕ} {status : SerialBrokerStatus} {changes : List StatusChange}
    (h : ChainFrom number status changes) :
    number ≤ (chainEnd number status changes).1 := by
  induction changes generalizing number status with
  | nil => exact Nat.le_refl _
  | cons change changes ih => exact Nat.le_trans (Nat.le_of_lt h.1) (ih h.2.2)

theorem Dispatch.owes_iff {dispatch : Dispatch} {r : StatusListener} :
    dispatch.owes r = true ↔ r.listener ∈ dispatch.rest ∧ r.since < dispatch.change.number := by
  rw [Dispatch.owes, Bool.and_eq_true, decide_eq_true_iff, decide_eq_true_iff]

namespace StatusSession

variable {s s' : StatusSession} {r : StatusListener} {d : Dispatch}

theorem Told.lt_length (h : Told s r) : r.last.1 < s.history.length :=
  (List.getElem?_eq_some_iff.mp h.last).1

/-- A registration is judged by the history and by the dispatches that have yet to tell it. -/
theorem Told.of_same (h : Told s r) (hhistory : s'.history = s.history)
    (hkept : ∀ d ∈ s.dispatches, r.listener ∈ d.rest → ∃ d' ∈ s'.dispatches, d'.change = d.change ∧
      r.listener ∈ d'.rest)
    (hold : ∀ d' ∈ s'.dispatches, r.listener ∈ d'.rest → ∃ d ∈ s.dispatches, d.change = d'.change ∧
      r.listener ∈ d.rest) : Told s' r := by
  refine ⟨h.chain, hhistory ▸ h.last, fun n hlast hn => ?_, fun d' hd' howes => ?_⟩
  · obtain ⟨d, hd, hnumber, hrest⟩ := h.owed n hlast (hhistory ▸ hn)
    obtain ⟨d', hd', hchange, hrest'⟩ := hkept d hd hrest
    exact ⟨d', hd', hchange ▸ hnumber, hrest'⟩
  · obtain ⟨hrest', hsince⟩ := Dispatch.owes_iff.mp howes
    obtain ⟨d, hd, hchange, hrest⟩ := hold d' hd' hrest'
    exact hchange ▸ h.due d hd (Dispatch.owes_iff.mpr ⟨hrest, hchange.symm ▸ hsince⟩)

theorem Sound.lt_length (h : Sound s) (hd : d ∈ s.dispatches) :
    d.change.number < s.history.length :=
  (List.getElem?_eq_some_iff.mp (h.changes d hd).2.2).1

theorem Sound.length_pos (h : Sound s) : 0 < s.history.length :=
  Nat.zero_lt_of_lt (List.getElem?_eq_some_iff.mp h.status).1

theorem Sound.idle : Sound .idle where
  status := rfl
  distinct := List.nodup_nil
  nested := List.Pairwise.nil
  rests := List.forall_mem_nil _
  changes := List.forall_mem_nil _
  told := List.forall_mem_nil _

theorem Sound.setStatus (h : Sound s) (status : SerialBrokerStatus) :
    Sound (s.setStatus status) := by
  rw [StatusSession.setStatus]
  split
  case isTrue => exact h
  case isFalse hnew =>
    have hbefore : ∀ n status', s.history[n]? = some status' →
        (s.history ++ [status])[n]? = some status' := fun n status' hn => by
      rw [List.getElem?_append_left (List.getElem?_eq_some_iff.mp hn).1, hn]
    have hdispatches : ∀ d ∈ (if s.listeners = [] then s.dispatches
        else ⟨⟨s.history.length, status, s.status⟩, s.listeners.map StatusListener.listener, false⟩
          :: s.dispatches),
        d ∈ s.dispatches ∨ d = ⟨⟨s.history.length, status, s.status⟩,
          s.listeners.map StatusListener.listener, false⟩ := by
      intro d hd
      split at hd
      · exact .inl hd
      · exact (List.mem_cons.mp hd).symm
    refine ⟨by simp, h.distinct, ?_, fun d hd => ?_, fun d hd => ?_, fun r hr =>
      ⟨(h.told r hr).chain, hbefore _ _ (h.told r hr).last, ?_, ?_⟩⟩
    · show List.Pairwise _ (if _ then _ else _)
      split
      · exact h.nested
      · exact List.pairwise_cons.mpr ⟨fun d hd => h.lt_length hd, h.nested⟩
    · obtain hd | rfl := hdispatches d hd
      · exact h.rests d hd
      · exact h.distinct
    · obtain hd | rfl := hdispatches d hd
      · obtain ⟨hpos, hprevious, hstatus⟩ := h.changes d hd
        exact ⟨hpos, hbefore _ _ hprevious, hbefore _ _ hstatus⟩
      · exact ⟨h.length_pos, hbefore _ _ h.status, by simp⟩
    · intro n hlast hn
      have hne : s.listeners ≠ [] := List.ne_nil_of_mem hr
      show ∃ d ∈ (if s.listeners = [] then _ else _), _
      rw [if_neg hne]
      by_cases hold : n < s.history.length
      · obtain ⟨d, hd, hnumber, hrest⟩ := (h.told r hr).owed n hlast hold
        exact ⟨d, List.mem_cons_of_mem _ hd, hnumber, hrest⟩
      · have hlength : n < s.history.length + 1 := by simpa using hn
        exact ⟨_, List.mem_cons_self, by show s.history.length = n; omega, List.mem_map_of_mem hr⟩
    · intro d hd howes
      obtain hd | rfl := hdispatches d hd
      · exact (h.told r hr).due d hd howes
      · exact (h.told r hr).lt_length

theorem Sound.subscribe (h : Sound s) (listener : ListenerId) : Sound (s.subscribe listener) := by
  rw [StatusSession.subscribe]
  split
  case isTrue => exact h
  case isFalse hnew =>
    refine ⟨h.status, ?_, h.nested, h.rests, h.changes, fun r hr => ?_⟩
    · rw [List.map_append, List.nodup_append']
      exact ⟨h.distinct, List.nodup_singleton _, List.disjoint_singleton.mpr hnew⟩
    · obtain hr | hr := List.mem_append.mp hr
      · exact (h.told r hr).of_same rfl (fun d hd hrest => ⟨d, hd, rfl, hrest⟩) fun d hd hrest =>
          ⟨d, hd, rfl, hrest⟩
      · obtain rfl := List.mem_singleton.mp hr
        refine ⟨trivial, h.status, fun n hlast hn => ?_, fun d hd howes => ?_⟩
        · have hlast' : s.history.length - 1 < n := hlast
          have hn' : n < s.history.length := hn
          omega
        · exact (Dispatch.owes_iff.mp howes).2

theorem Sound.keepsListeners {listeners : List StatusListener} (h : Sound s)
    (hkept : listeners.Sublist s.listeners) :
    Sound { s with listeners } where
  status := h.status
  distinct := h.distinct.sublist (hkept.map _)
  nested := h.nested
  rests := h.rests
  changes := h.changes
  told r hr := (h.told r (hkept.subset hr)).of_same rfl (fun d hd hrest => ⟨d, hd, rfl, hrest⟩)
    fun d hd hrest => ⟨d, hd, rfl, hrest⟩

/-- Nothing else of the session matters. -/
theorem Sound.of_same (h : Sound s) (hstatus : s'.status = s.status)
    (hhistory : s'.history = s.history)
    (hlisteners : s'.listeners = s.listeners) (hdispatches : s'.dispatches = s.dispatches) :
    Sound s' := by
  refine ⟨by rw [hhistory, hstatus, h.status], hlisteners ▸ h.distinct, hdispatches ▸ h.nested,
    hdispatches ▸ h.rests,
    fun d hd => ?_, fun r hr => (h.told r (hlisteners ▸ hr)).of_same hhistory ?_ ?_⟩
  · rw [hhistory]
    exact h.changes d (hdispatches ▸ hd)
  · exact fun d hd hrest => ⟨d, hdispatches ▸ hd, rfl, hrest⟩
  · exact fun d hd hrest => ⟨d, hdispatches ▸ hd, rfl, hrest⟩

theorem Sound.supervisorEnters (h : Sound s) (gaveUp : Bool) (status : SerialBrokerStatus) :
    Sound (s.supervisorEnters gaveUp status) := by
  rw [StatusSession.supervisorEnters]
  cases s.supervisor with
  | none => exact h
  | some supervisor =>
    have hentered : Sound { s with supervisor := some ⟨gaveUp, status⟩ } :=
      h.of_same rfl rfl rfl rfl
    show Sound (if _ then _ else _)
    split
    · exact hentered
    · exact hentered.setStatus status

theorem Sound.retry (h : Sound s) : Sound s.retry := by
  rw [StatusSession.retry]
  split
  · exact h
  · cases s.supervisor with
    | none => exact h
    | some supervisor =>
      show Sound (if _ then _ else _)
      split
      · exact h.supervisorEnters false .connecting
      · exact h

theorem Sound.perform (h : Sound s) (event : StatusEvent) : Sound (s.perform event) := by
  cases event with
  | subscribe listener => exact h.subscribe listener
  | unsubscribe listener => exact h.keepsListeners List.filter_sublist
  | setup => exact h.retry
  | release =>
    show Sound (StatusSession.release s)
    rw [StatusSession.release]
    split
    · exact h
    · exact h.of_same rfl rfl rfl rfl
  | setStatus status => exact h.setStatus status
  | withdraw =>
    have hwithdrawn : Sound { s with isWithdrawn := true } := h.of_same rfl rfl rfl rfl
    exact hwithdrawn.setStatus .failed
  | startTerm => exact h.of_same rfl rfl rfl rfl
  | stopBeingOwner => exact h.of_same rfl rfl rfl rfl
  | supervisorEnters gaveUp status => exact h.supervisorEnters gaveUp status
  | clear => exact h.keepsListeners (List.nil_sublist _)
  | requestAccess => exact h
  | send => exact h
  | callNext => exact h
  | returns => exact h

theorem Sound.returns (h : Sound s) (hstep : s.returns = some s') : Sound s' := by
  rw [StatusSession.returns] at hstep
  cases hdispatches : s.dispatches with
  | nil =>
    rw [hdispatches] at hstep
    cases hstep
  | cons dispatch outer =>
    simp only [hdispatches] at hstep
    split at hstep
    case isFalse => cases hstep
    case isTrue =>
      obtain rfl := Option.some.inj hstep
      have hmem : ∀ d ∈
          { dispatch with isCalling := false } :: outer, ∃ d' ∈ s.dispatches, d'.change = d.change ∧
          d'.rest = d.rest := by
        rw [hdispatches]
        intro d hd
        obtain rfl | hd := List.mem_cons.mp hd
        · exact ⟨dispatch, List.mem_cons_self, rfl, rfl⟩
        · exact ⟨d, List.mem_cons_of_mem _ hd, rfl, rfl⟩
      refine ⟨h.status, h.distinct, ?_, fun d hd => ?_, fun d hd => ?_, fun r hr =>
        (h.told r hr).of_same rfl ?_ ?_⟩
      · have hnested := hdispatches ▸ h.nested
        exact List.pairwise_cons.mpr (List.pairwise_cons.mp hnested)
      · obtain ⟨d', hd', _, hrest⟩ := hmem d hd
        exact hrest ▸ h.rests d' hd'
      · obtain ⟨d', hd', hchange, _⟩ := hmem d hd
        exact hchange ▸ h.changes d' hd'
      · intro d hd hrest
        rw [hdispatches] at hd
        obtain rfl | hd := List.mem_cons.mp hd
        · exact ⟨_, List.mem_cons_self, rfl, hrest⟩
        · exact ⟨d, List.mem_cons_of_mem _ hd, rfl, hrest⟩
      · intro d hd hrest
        obtain ⟨d', hd', hchange, hrest'⟩ := hmem d hd
        exact ⟨d', hd', hchange, hrest' ▸ hrest⟩

/-- A dispatch that has told everyone of its snapshot ends. -/
theorem Sound.dispatchEnds {dispatch : Dispatch} {outer : List Dispatch} (h : Sound s)
    (hdispatches : s.dispatches = dispatch :: outer)
    (hrest : dispatch.rest = []) : Sound { s with dispatches := outer } := by
  have hmem : ∀ d ∈ outer, d ∈ s.dispatches := fun d hd => hdispatches ▸ List.mem_cons_of_mem _ hd
  refine ⟨h.status, h.distinct, (List.pairwise_cons.mp (hdispatches ▸ h.nested)).2, fun d hd =>
    h.rests d (hmem d hd),
    fun d hd => h.changes d (hmem d hd), fun r hr => (h.told r hr).of_same rfl ?_ ?_⟩
  · intro d hd hr
    rw [hdispatches] at hd
    obtain rfl | hd := List.mem_cons.mp hd
    · rw [hrest] at hr
      cases hr
    · exact ⟨d, hd, rfl, hr⟩
  · exact fun d hd hr => ⟨d, hmem d hd, rfl, hr⟩

/-- Where it is not overtaken, a listener is told of the change after the last one it knows, and
this is the newest. -/
theorem Told.next {dispatch : Dispatch} {outer : List Dispatch} (hs : Sound s) (h : Told s r)
    (hdispatches : s.dispatches = dispatch :: outer) (howes : dispatch.owes r = true)
    (houter : ∀ d ∈ outer, d.owes r = false) :
    dispatch.change.number = r.last.1 + 1 ∧ s.history.length = dispatch.change.number + 1 := by
  have hmem : dispatch ∈ s.dispatches := hdispatches ▸ List.mem_cons_self
  have hlast := h.due dispatch hmem howes
  have hlength := hs.lt_length hmem
  have honly : ∀ n, r.last.1 < n → n < s.history.length → n = dispatch.change.number := by
    intro n hn hlt
    obtain ⟨d, hd, hnumber, hrest⟩ := h.owed n hn hlt
    have hdue : d.owes r = true :=
      Dispatch.owes_iff.mpr ⟨hrest, by rw [hnumber]; exact Nat.lt_of_le_of_lt h.chain.le_end hn⟩
    rw [hdispatches] at hd
    obtain rfl | hd := List.mem_cons.mp hd
    · exact hnumber.symm
    · rw [houter d hd] at hdue
      cases hdue
  have hnext := honly (r.last.1 + 1) (Nat.lt_succ_self _) (by omega)
  have hnewest := honly (s.history.length - 1) (by omega) (by omega)
  omega

theorem overtakes_eq_false {dispatch : Dispatch} {outer : List Dispatch}
    (hdispatches : s.dispatches = dispatch :: outer)
    (h : s.overtakes = false) (hr : r ∈ s.listeners)
    (hnext : dispatch.rest.head? = some r.listener) :
    dispatch.owes r = true ∧ ∀ d ∈ outer, d.owes r = false := by
  simp only [overtakes, hdispatches, List.any_eq_false, Bool.and_eq_true, Bool.or_eq_true,
    Bool.not_eq_true', decide_eq_true_eq,
    List.any_eq_true, not_and, not_or, not_exists, Bool.not_eq_false, Bool.not_eq_true] at h
  exact h r hr hnext

theorem Sound.tell {dispatch : Dispatch} {outer : List Dispatch} {listener : ListenerId}
    {rest : List ListenerId} (h : Sound s)
    (hdispatches : s.dispatches = dispatch :: outer) (hrest : dispatch.rest = listener :: rest)
    (hovertakes : s.overtakes = false)
    (isCalling : Bool) :
    Sound
      { s with
        listeners := s.listeners.map fun r =>
          if r.listener = listener then { r with heard := r.heard ++ [dispatch.change] } else r
        dispatches := { dispatch with rest, isCalling } :: outer } := by
  have hmem : dispatch ∈ s.dispatches := hdispatches ▸ List.mem_cons_self
  obtain ⟨_, hprevious, hstatus⟩ := h.changes dispatch hmem
  have hnodup := List.nodup_cons.mp (hrest ▸ h.rests dispatch hmem)
  have hnested := List.pairwise_cons.mp (hdispatches ▸ h.nested)
  have hold : ∀ d ∈ { dispatch with rest, isCalling } :: outer,
      ∃ d' ∈ s.dispatches, d'.change = d.change ∧ d.rest.Sublist d'.rest := by
    rw [hdispatches]
    intro d hd
    obtain rfl | hd := List.mem_cons.mp hd
    · exact ⟨dispatch, List.mem_cons_self, rfl, hrest ▸ List.sublist_cons_self ..⟩
    · exact ⟨d, List.mem_cons_of_mem _ hd, rfl, List.Sublist.refl _⟩
  refine ⟨h.status, ?_, List.pairwise_cons.mpr hnested, fun d hd => ?_, fun d hd => ?_,
    fun r hr => ?_⟩
  · show ((s.listeners.map _).map StatusListener.listener).Nodup
    rw [List.map_map]
    refine (List.map_congr_left fun r _ => ?_) ▸ h.distinct
    show r.listener = StatusListener.listener (if _ then _ else _)
    split <;> rfl
  · obtain ⟨d', hd', _, hsublist⟩ := hold d hd
    exact (h.rests d' hd').sublist hsublist
  · obtain ⟨d', hd', hchange, _⟩ := hold d hd
    exact hchange ▸ h.changes d' hd'
  · obtain ⟨r, hlistener, rfl⟩ := List.mem_map.mp hr
    have htold := h.told r hlistener
    split
    case isTrue hsame =>
      obtain ⟨howes, houter⟩ :=
        overtakes_eq_false hdispatches hovertakes hlistener (by rw [hrest, hsame]; rfl)
      obtain ⟨hnumber, hlength⟩ := htold.next h hdispatches howes houter
      have hend : StatusListener.last
          { r with heard := r.heard ++ [dispatch.change] } = (dispatch.change.number,
            dispatch.change.status) :=
        chainEnd_concat ..
      refine ⟨chainFrom_concat.mpr ⟨htold.chain, htold.due dispatch hmem howes, ?_⟩, hend ▸ hstatus,
        fun n hn hlt => ?_,
        fun d hd hdue => ?_⟩
      · have hlast : r.last.1 = dispatch.change.number - 1 := by omega
        have hknown := htold.last
        rw [hlast, hprevious] at hknown
        exact Option.some.inj hknown
      · rw [hend] at hn
        have hlt' : n < s.history.length := hlt
        omega
      · obtain rfl | hd := List.mem_cons.mp hd
        · exact absurd (hsame ▸ (Dispatch.owes_iff.mp hdue).1) hnodup.1
        · have hinterrupted : d.owes r = true := hdue
          rw [houter d hd] at hinterrupted
          cases hinterrupted
    case isFalse hother =>
      refine htold.of_same rfl (fun d hd hr' => ?_) (fun d hd hr' => ?_)
      · rw [hdispatches] at hd
        obtain rfl | hd := List.mem_cons.mp hd
        · rw [hrest] at hr'
          exact ⟨_, List.mem_cons_self, rfl, (List.mem_cons.mp hr').resolve_left hother⟩
        · exact ⟨d, List.mem_cons_of_mem _ hd, rfl, hr'⟩
      · obtain ⟨d', hd', hchange, hsublist⟩ := hold d hd
        exact ⟨d', hd', hchange, hsublist.subset hr'⟩

theorem Sound.callNext (h : Sound s) (hovertakes : s.overtakes = false)
    (hstep : s.callNext = some s') : Sound s' := by
  rw [StatusSession.callNext] at hstep
  cases hdispatches : s.dispatches with
  | nil =>
    rw [hdispatches] at hstep
    cases hstep
  | cons dispatch outer =>
    simp only [hdispatches] at hstep
    split at hstep
    case isTrue => cases hstep
    case isFalse =>
      cases hrest : dispatch.rest with
      | nil =>
        simp only [hrest] at hstep
        obtain rfl := Option.some.inj hstep
        exact h.dispatchEnds hdispatches hrest
      | cons listener rest =>
        simp only [hrest] at hstep
        obtain rfl := Option.some.inj hstep
        exact h.tell hdispatches hrest hovertakes _

theorem Sound.step (h : Sound s) {event : StatusEvent}
    (hovertakes : event = .callNext → s.overtakes = false)
    (hstep : s.step event = some s') : Sound s' := by
  have hperform : ∀ {event}, (if s.canRun then some (s.perform event) else none) = some s' →
      Sound s' := by
    intro event hrun
    split at hrun
    case isTrue =>
      obtain rfl := Option.some.inj hrun
      exact h.perform event
    case isFalse => cases hrun
  cases event with
  | callNext => exact h.callNext (hovertakes rfl) hstep
  | returns => exact h.returns hstep
  | _ => exact hperform hstep

theorem Sound.hearsChain (h : Sound s) : s.HearsChain := by
  intro r hr
  have htold := h.told r hr
  refine ⟨htold.chain, fun hidle => ?_⟩
  have hlast : r.last.1 = s.history.length - 1 := by
    by_contra hne
    have hlt := htold.lt_length
    obtain ⟨d, hd, _⟩ := htold.owed (s.history.length - 1) (by omega) (by omega)
    rw [hidle] at hd
    cases hd
  have hknown := htold.last
  rw [hlast, h.status] at hknown
  exact (Option.some.inj hknown).symm

/-- **Status events form a chain for every listener** in every run in which no listener is
overtaken: told of a change inside a call that another listener of an earlier change is in the
middle of, while it is still to be told of that one, or told of a change older than its
registration. -/
theorem hears_chain {events : List StatusEvent} {s : StatusSession}
    (hovertakes : statusSession.Always (fun s event =>
      event = .callNext → s.overtakes = false) events)
    (hrun : statusSession.run events = some s) : s.HearsChain := by
  have hsound : s.Sound :=
    statusSession.run_invariant Sound.idle (fun _ _ _ h hnot hstep =>
      h.step hnot hstep) hovertakes hrun
  exact hsound.hearsChain

/-- The connection gives up while two listeners are there. -/
def gaveUpBeforeTwo : List StatusEvent :=
  [.subscribe 1, .subscribe 2, .startTerm, .supervisorEnters false .connecting, .callNext, .returns,
    .callNext, .returns, .callNext,
    .supervisorEnters true .failed]

/-- The last listener of an event sets the configuration up again inside it. -/
def retriedByTheLast : List StatusEvent :=
  gaveUpBeforeTwo ++
    [.callNext, .returns, .callNext, .setup, .callNext, .returns, .callNext, .returns, .callNext,
      .returns, .callNext]

theorem hears_chain_retriedByTheLast :
    ∃ s, statusSession.run retriedByTheLast = some s ∧ s.HearsChain ∧ s.status = .connecting ∧
      s.dispatches = [] := by
  obtain ⟨s, hrun, hdone⟩ := (Option.any_eq_true _ _).mp
    (show (statusSession.run retriedByTheLast).any (fun s =>
      decide (s.status = .connecting ∧ s.dispatches = [])) = true by decide)
  have hcheck : statusSession.Always (fun s event =>
      decide (event = .callNext → s.overtakes = false) = true) retriedByTheLast :=
    TransitionSystem.always_of_alwaysFrom _ (by decide)
  exact ⟨s, hrun, hears_chain (hcheck.mono fun s event h => of_decide_eq_true h) hrun,
    of_decide_eq_true hdone⟩

/-- The first listener of an event sets the configuration up again inside it: the second hears of
the new attempt first. -/
def retriedByTheFirst : List StatusEvent :=
  gaveUpBeforeTwo ++ [.callNext, .setup, .callNext, .returns, .callNext]

theorem not_hears_chain :
    ¬∀ (events : List StatusEvent) (s : StatusSession), statusSession.run events = some s →
    s.HearsChain := by
  intro hchain
  obtain ⟨s, hrun, hbroken⟩ := (Option.any_eq_true _ _).mp
    (show (statusSession.run retriedByTheFirst).any (fun s =>
      decide ¬s.HearsChain) = true by decide)
  exact of_decide_eq_true hbroken (hchain _ s hrun)

end StatusSession

end SerialBroker
