import SerialBroker.Owner.PortSupervisorStopped

/-!
# A stopped supervisor leaves no port open

Every call of `open()` that has not failed, and whose port is not closed, is somebody's to close:
the state's, a close's that has not finished, or that of the `stop()` that waits for the writes of
its port. `stop()` waits for all the closes there are when it has the last port closed, so that none
of them is unfinished when its promise resolves; this needs that no step of a close runs out of
time.

A close lets go of both streams before it calls `close()`, or is of a port whose streams nobody has
taken, so that `close()` has no reason to refuse. Only an attempt that took the reader and found
`getWriter()` to throw leaves a lock behind that no close lets go of.
-/

namespace SerialBroker

/-- Whether the port may be open, now or later. -/
def OpenPhase.isLive : OpenPhase → Bool
  | .pending | .opened => true
  | .failed | .closed => false

/-- The tasks and frames that matter to who closes what. -/
def Task.IsAccounted : Task → Prop
  | .openedPort .. | .stopDraining _ | .stopTeardown _ | .stopAnswered => True
  | _ => False

def Task.IsOfStop : Task → Prop
  | .stopDraining _ | .stopTeardown _ | .stopAnswered => True
  | _ => False

def Frame.IsAccounted : Frame → Prop
  | .stopFlushed _ | .stopReported => True
  | _ => False

/-- What a close has let go of by the step it waits for. -/
def Closing.HasFreed (locks : List StreamLock) (close : Closing) : Prop :=
  match close.step with
  | .draining | .cancelling => True
  | .aborting => .reader close.openId ∉ locks
  | .waitingForOpen | .closing => ∀ lock ∈ locks, lock.openId ≠ close.openId

theorem Closing.HasFreed.mono {locks locks' : List StreamLock} {close : Closing}
    (h : close.HasFreed locks) (hsub : locks' ⊆ locks) :
    close.HasFreed locks' := by
  unfold Closing.HasFreed at h ⊢
  cases hstep : close.step with
  | draining | cancelling => trivial
  | aborting =>
    rw [hstep] at h
    exact fun hlock => h (hsub hlock)
  | waitingForOpen | closing =>
    rw [hstep] at h
    exact fun lock hlock => h lock (hsub hlock)

namespace Supervisor

variable {config : ConnectionConfig} {s s' s'' : Supervisor} {task : Task} {frame : Frame}
  {generation : Generation}
  {answer : Answer} {event : SupervisorEvent} {openId : OpenId}

/-- `open()` has succeeded or failed. -/
def Settled (s : Supervisor) (openId : OpenId) : Prop :=
  ∃ phase, s.phase? openId = some phase ∧ phase ≠ .pending

def HasClose (s : Supervisor) (openId : OpenId) : Prop := ∃ close ∈ s.closes, close.openId = openId

/-- `stop()` is going to have the port closed. -/
def StopsAt (s : Supervisor) (openId : OpenId) : Prop :=
  .stopDraining openId ∈ s.tasks ∨ ∃ port, .stopFlushed (.open port openId) ∈ s.stack

/-- `stop()` has come to its end, or to the report of it. -/
def IsAnswered (s : Supervisor) : Prop :=
  .stopAnswered ∈ s.tasks ∨ .stopReported ∈ s.stack ∨ 0 < s.stopsResolved

/-- **Who closes what**, between two steps. -/
structure Kept (s : Supervisor) : Prop where
  ids : KeyedList.Distinct OpenCall.id s.opens
  idsLt : ∀ call ∈ s.opens, call.id < s.opens.length
  closeIds : KeyedList.Distinct Closing.id s.closes
  closeIdsLt : ∀ close ∈ s.closes, close.id < s.nextClose
  teardown : ∀ close ∈ s.closes, close.id ∈ s.teardown.getD []
  settledClose : ∀ close ∈ s.closes, close.step ≠ .waitingForOpen → s.Settled close.openId
  settledOpen : ∀ port openId, s.state = .open port openId → s.Settled openId
  settledTask : ∀ generation port openId, .openedPort generation port openId ∈ s.tasks →
    s.Settled openId
  settledStop : ∀ openId, s.StopsAt openId → s.Settled openId
  stopsAt : ∀ openId openId', s.StopsAt openId → s.StopsAt openId' → openId = openId'
  stopState : ∀ openId openId', s.StopsAt openId → s.state.openId? = some openId' → openId = openId'
  stopping : s.isStopping = s.hasStopped
  stopTasks : ∀ task ∈ s.tasks, task.IsOfStop → s.hasStopped = true
  owned : ∀ call ∈ s.opens, call.phase.isLive →
    s.state.openId? = some call.id ∨ s.HasClose call.id ∨ .stopDraining call.id ∈ s.tasks
  torndown : ∀ closes, .stopTeardown closes ∈ s.tasks → ∀ call ∈ s.opens, call.phase.isLive →
    ∃ close ∈ s.closes, close.openId = call.id ∧ close.id ∈ closes
  answered : s.IsAnswered → s.hasStopped = true ∧ ∀ call ∈ s.opens, call.phase.isLive = false
  closesLt : ∀ close ∈ s.closes, close.openId < s.opens.length
  locksLt : ∀ lock ∈ s.locks, lock.openId < s.opens.length
  opening : ∀ port openId, s.state = .opening port openId →
    openId < s.opens.length ∧ (∀ lock ∈ s.locks, lock.openId ≠ openId) ∧
      ∀ close ∈ s.closes, close.openId ≠ openId
  freed : ∀ close ∈ s.closes, close.HasFreed s.locks

theorem init_kept : init.Kept where
  ids := List.nodup_nil
  idsLt := by simp [init]
  closeIds := List.nodup_nil
  closeIdsLt := by simp [init]
  teardown := by simp [init]
  settledClose := by simp [init]
  settledOpen _ _ h := nomatch h
  settledTask := by simp [init]
  settledStop := by simp [init, StopsAt]
  stopsAt := by simp [init, StopsAt]
  stopState := by simp [init, StopsAt]
  stopping := rfl
  stopTasks := by simp [init]
  owned := by simp [init]
  torndown := by simp [init]
  answered := by simp [init, IsAnswered]
  closesLt := by simp [init]
  locksLt := by simp [init]
  opening _ _ h := nomatch h
  freed := by simp [init]

/-! ### what leaves the accounts alone -/

/-- Only functions that close nothing were taken up or left off. -/
structure SameAccounts (s s' : Supervisor) : Prop where
  opens : s'.opens = s.opens
  locks : s'.locks = s.locks
  closes : s'.closes = s.closes
  nextClose : s'.nextClose = s.nextClose
  teardown : s'.teardown = s.teardown
  isStopping : s'.isStopping = s.isStopping
  hasStopped : s'.hasStopped = s.hasStopped
  stopsResolved : s'.stopsResolved = s.stopsResolved
  tasks : ∀ task ∈ s'.tasks, task.IsAccounted → task ∈ s.tasks
  draining : ∀ openId, .stopDraining openId ∈ s.tasks → .stopDraining openId ∈ s'.tasks
  frames : ∀ frame ∈ s'.stack, frame.IsAccounted → frame ∈ s.stack

theorem SameAccounts.refl (s : Supervisor) : SameAccounts s s :=
  ⟨rfl, rfl, rfl, rfl, rfl, rfl, rfl, rfl, fun _ h _ => h, fun _ h => h, fun _ h _ => h⟩

theorem SameAccounts.trans (h : SameAccounts s s') (h' : SameAccounts s' s'') :
    SameAccounts s s'' where
  opens := h'.opens.trans h.opens
  locks := h'.locks.trans h.locks
  closes := h'.closes.trans h.closes
  nextClose := h'.nextClose.trans h.nextClose
  teardown := h'.teardown.trans h.teardown
  isStopping := h'.isStopping.trans h.isStopping
  hasStopped := h'.hasStopped.trans h.hasStopped
  stopsResolved := h'.stopsResolved.trans h.stopsResolved
  tasks task htask haccounted := h.tasks task (h'.tasks task htask haccounted) haccounted
  draining openId hdraining := h'.draining openId (h.draining openId hdraining)
  frames frame hframe haccounted := h.frames frame (h'.frames frame hframe haccounted) haccounted

theorem SameAccounts.settled (h : SameAccounts s s') : s'.Settled openId ↔ s.Settled openId := by
  unfold Settled phase?
  rw [h.opens]

theorem SameAccounts.stopsAt (h : SameAccounts s s') (hstops : s'.StopsAt openId) :
    s.StopsAt openId := by
  rcases hstops with hstops | ⟨port, hstops⟩
  · exact Or.inl (h.tasks _ hstops trivial)
  · exact Or.inr ⟨port, h.frames _ hstops trivial⟩

theorem SameAccounts.isAnswered (h : SameAccounts s s') (hanswered : s'.IsAnswered) :
    s.IsAnswered := by
  rcases hanswered with htask | hframe | hresolved
  · exact Or.inl (h.tasks _ htask trivial)
  · exact Or.inr (Or.inl (h.frames _ hframe trivial))
  · exact Or.inr (Or.inr (h.stopsResolved ▸ hresolved))

/-- The state may change where nothing that is open is lost. -/
theorem Kept.of_same (h : s.Kept) (hsame : SameAccounts s s')
    (hkeeps : ∀ openId, s'.state.openId? = some openId → s.state.openId? = some openId)
    (hleaves : ∀ openId, s.state.openId? = some openId → s'.state.openId? = some openId ∨
      s.HasClose openId)
    (hopen : ∀ port openId, s'.state = .open port openId → s.Settled openId)
    (hopening : ∀ port openId, s'.state = .opening port openId → s.state = .opening port openId) :
    s'.Kept where
  ids := by rw [hsame.opens]; exact h.ids
  idsLt := by rw [hsame.opens]; exact h.idsLt
  closeIds := by rw [hsame.closes]; exact h.closeIds
  closeIdsLt := by rw [hsame.closes, hsame.nextClose]; exact h.closeIdsLt
  teardown := by rw [hsame.closes, hsame.teardown]; exact h.teardown
  settledClose close hclose hstep :=
    hsame.settled.mpr (h.settledClose close (hsame.closes ▸ hclose) hstep)
  settledOpen port openId hstate := hsame.settled.mpr (hopen port openId hstate)
  settledTask g port openId htask :=
    hsame.settled.mpr (h.settledTask g port openId (hsame.tasks _ htask trivial))
  settledStop openId hstops := hsame.settled.mpr (h.settledStop openId (hsame.stopsAt hstops))
  stopsAt a b ha hb := h.stopsAt a b (hsame.stopsAt ha) (hsame.stopsAt hb)
  stopState a b ha hb := h.stopState a b (hsame.stopsAt ha) (hkeeps b hb)
  stopping := by rw [hsame.isStopping, hsame.hasStopped]; exact h.stopping
  stopTasks task htask hstop := by
    rw [hsame.hasStopped]
    refine h.stopTasks task (hsame.tasks task htask ?_) hstop
    cases task <;> trivial
  owned call hcall hlive := by
    rw [hsame.opens] at hcall
    have hclose : s.HasClose call.id → s'.HasClose call.id :=
      fun ⟨close, hclose, hid⟩ => ⟨close, hsame.closes ▸ hclose, hid⟩
    rcases h.owned call hcall hlive with hstate | hhas | htask
    · rcases hleaves _ hstate with hstate | hhas
      · exact Or.inl hstate
      · exact Or.inr (Or.inl (hclose hhas))
    · exact Or.inr (Or.inl (hclose hhas))
    · exact Or.inr (Or.inr (hsame.draining _ htask))
  torndown closes htask := by
    rw [hsame.opens, hsame.closes]
    exact h.torndown closes (hsame.tasks _ htask trivial)
  answered hanswered := by
    rw [hsame.opens, hsame.hasStopped]
    exact h.answered (hsame.isAnswered hanswered)
  closesLt := by rw [hsame.closes, hsame.opens]; exact h.closesLt
  locksLt := by rw [hsame.locks, hsame.opens]; exact h.locksLt
  opening port openId hstate := by
    rw [hsame.opens, hsame.locks, hsame.closes]
    exact h.opening port openId (hopening port openId hstate)
  freed := by rw [hsame.closes, hsame.locks]; exact h.freed

/-- A change that leaves the accounts alone, and the state or what it had open. -/
structure Moves (s s' : Supervisor) : Prop extends SameAccounts s s' where
  state : s'.state = s.state ∨ s'.state.openId? = none

theorem Moves.refl (s : Supervisor) : Moves s s := ⟨.refl s, Or.inl rfl⟩

theorem Moves.trans (h : Moves s s') (h' : Moves s' s'') : Moves s s'' where
  toSameAccounts := h.toSameAccounts.trans h'.toSameAccounts
  state := by
    rcases h'.state with hstate | hnone
    · rw [hstate]
      exact h.state
    · exact Or.inr hnone

theorem Kept.moves (h : s.Kept) (hmoves : Moves s s')
    (hleaves : ∀ openId, s.state.openId? = some openId → s'.state = s.state ∨ s.HasClose openId) :
    s'.Kept := by
  refine h.of_same hmoves.toSameAccounts (fun openId hid => ?_) (fun openId hid => ?_)
      (fun port openId hopen => ?_)
    fun port openId hopening => ?_
  · rcases hmoves.state with hstate | hnone
    · rw [← hstate]
      exact hid
    · exact nomatch hnone.symm.trans hid
  · rcases hleaves openId hid with hstate | hclose
    · exact Or.inl (hstate ▸ hid)
    · exact Or.inr hclose
  · rcases hmoves.state with hstate | hnone
    · exact h.settledOpen port openId (hstate ▸ hopen)
    · rw [hopen] at hnone
      exact nomatch hnone
  · rcases hmoves.state with hstate | hnone
    · exact hstate ▸ hopening
    · rw [hopening] at hnone
      exact nomatch hnone

/-- Where the state has nothing open, any such change will do. -/
theorem Kept.moves_of_none (h : s.Kept) (hmoves : Moves s s') (hnone : s.state.openId? = none) :
    s'.Kept :=
  h.moves hmoves fun _ hid => nomatch hnone.symm.trans hid

theorem Kept.moves_of_state (h : s.Kept) (hmoves : Moves s s') (hstate : s'.state = s.state) :
    s'.Kept :=
  h.moves hmoves fun _ _ => Or.inl hstate

/-- Fields the accounts do not have may change. -/
theorem Moves.note (hopens : s'.opens = s.opens ∧ s'.locks = s.locks)
    (hcloses : s'.closes = s.closes ∧ s'.nextClose = s.nextClose)
    (hteardown : s'.teardown = s.teardown)
    (hstops : s'.isStopping = s.isStopping ∧ s'.hasStopped = s.hasStopped)
    (hresolved : s'.stopsResolved = s.stopsResolved) (htasks : s'.tasks = s.tasks)
    (hstack : s'.stack = s.stack)
    (hstate : s'.state = s.state ∨ s'.state.openId? = none) : Moves s s' where
  opens := hopens.1
  locks := hopens.2
  closes := hcloses.1
  nextClose := hcloses.2
  teardown := hteardown
  isStopping := hstops.1
  hasStopped := hstops.2
  stopsResolved := hresolved
  tasks := by rw [htasks]; exact fun _ h _ => h
  draining := by rw [htasks]; exact fun _ h => h
  frames := by rw [hstack]; exact fun _ h _ => h
  state := hstate

theorem Moves.wait (h : Moves s s') (htask : ¬ task.IsAccounted) : Moves s (s'.wait task) := by
  refine h.trans { SameAccounts.refl s' with tasks := ?_, draining := ?_, state := Or.inl rfl }
  · intro t ht haccounted
    rcases List.mem_append.mp ht with ht | ht
    · exact ht
    · obtain rfl := List.mem_singleton.mp ht
      exact absurd haccounted htask
  · exact fun _ hdraining => List.mem_append_left _ hdraining

theorem Moves.callback (h : Moves s s') (hframe : ¬ frame.IsAccounted) :
    Moves s (s'.callback frame) := by
  refine h.trans { SameAccounts.refl s' with frames := ?_, state := Or.inl rfl }
  intro f hf haccounted
  rcases List.mem_cons.mp hf with rfl | hf
  · exact absurd haccounted hframe
  · exact hf

theorem Moves.setStatus (h : Moves s s') (status : SerialBrokerStatus) :
    Moves s (s'.setStatus status) := by
  unfold Supervisor.setStatus
  split
  · exact h
  · exact Moves.callback
      (h.trans (.note ⟨rfl, rfl⟩ ⟨rfl, rfl⟩ rfl ⟨rfl, rfl⟩ rfl rfl rfl (Or.inl rfl))) id

theorem Moves.report (h : Moves s s') (code : SerialBrokerErrorCode)
    (hframe : ¬ frame.IsAccounted) :
    Moves s (s'.report code frame) :=
  Moves.callback (h.trans (.note ⟨rfl, rfl⟩ ⟨rfl, rfl⟩ rfl ⟨rfl, rfl⟩ rfl rfl rfl (Or.inl rfl)))
    hframe

theorem Moves.listPorts (h : Moves s s') (generation : Generation) :
    Moves s (s'.listPorts generation) :=
  Moves.wait (h.trans (.note ⟨rfl, rfl⟩ ⟨rfl, rfl⟩ rfl ⟨rfl, rfl⟩ rfl rfl rfl (Or.inl rfl))) id

theorem Moves.findPort (h : Moves s s') (generation : Generation) :
    Moves s (s'.findPort generation) := by
  unfold Supervisor.findPort
  split
  · exact h.wait id
  · exact h.listPorts generation

theorem Kept.findPort (h : s.Kept) : (s.findPort generation).Kept := by
  refine h.moves_of_state (Moves.findPort (.refl s) generation) ?_
  unfold Supervisor.findPort
  split
  · rfl
  · rfl

theorem Moves.connect (h : Moves s s') : Moves s s'.connect := by
  unfold Supervisor.connect
  split
  · exact h
  · dsimp only
    split
    · refine Moves.findPort ?_ _
      exact h.trans (.note ⟨rfl, rfl⟩ ⟨rfl, rfl⟩ rfl ⟨rfl, rfl⟩ rfl rfl rfl (Or.inr rfl))
    · refine Moves.callback ?_ id
      exact h.trans (.note ⟨rfl, rfl⟩ ⟨rfl, rfl⟩ rfl ⟨rfl, rfl⟩ rfl rfl rfl (Or.inr rfl))

theorem Moves.giveUp (h : Moves s s') : Moves s s'.giveUp := by
  refine Moves.setStatus ?_ _
  exact h.trans (.note ⟨rfl, rfl⟩ ⟨rfl, rfl⟩ rfl ⟨rfl, rfl⟩ rfl rfl rfl (Or.inr rfl))

theorem Moves.recordFailedAttempt (h : Moves s s') : Moves s (s'.recordFailedAttempt config) := by
  unfold Supervisor.recordFailedAttempt
  split
  · exact h.giveUp
  dsimp only
  split
  · split
    · refine Moves.report ?_ _ id
      exact h.trans (.note ⟨rfl, rfl⟩ ⟨rfl, rfl⟩ rfl ⟨rfl, rfl⟩ rfl rfl rfl (Or.inr rfl))
    · refine Moves.callback ?_ id
      exact h.trans (.note ⟨rfl, rfl⟩ ⟨rfl, rfl⟩ rfl ⟨rfl, rfl⟩ rfl rfl rfl (Or.inr rfl))
  · refine Moves.setStatus ?_ _
    exact h.trans (.note ⟨rfl, rfl⟩ ⟨rfl, rfl⟩ rfl ⟨rfl, rfl⟩ rfl rfl rfl (Or.inr rfl))

theorem reportLoss_moves (previous : ConnectionState) (code : SerialBrokerErrorCode)
    (next : AfterLoss) :
    Moves s (s.reportLoss previous code next) ∧
      (s.reportLoss previous code next).state = s.state := by
  refine ⟨Moves.report ?_ code id, rfl⟩
  exact .note ⟨rfl, rfl⟩ ⟨rfl, rfl⟩ rfl ⟨rfl, rfl⟩ rfl rfl rfl (Or.inl rfl)

/-- A loss is reported before anything is done about it. -/
theorem handleConnectionLoss_moves (code : SerialBrokerErrorCode) (next : AfterLoss) :
    Moves s (s.handleConnectionLoss code next) ∧
      (s.handleConnectionLoss code next).state = s.state := by
  unfold Supervisor.handleConnectionLoss
  split
  · exact ⟨.refl s, rfl⟩
  · exact ⟨.refl s, rfl⟩
  · rename_i port openId hstate
    split
    · exact ⟨Moves.callback (.note ⟨rfl, rfl⟩ ⟨rfl, rfl⟩ rfl ⟨rfl, rfl⟩ rfl rfl rfl (Or.inl rfl))
        id, rfl⟩
    · exact reportLoss_moves _ _ _
  · exact reportLoss_moves _ _ _

theorem Kept.handleConnectionLoss (h : s.Kept) (code : SerialBrokerErrorCode) (next : AfterLoss) :
    (s.handleConnectionLoss code next).Kept :=
  h.moves_of_state (handleConnectionLoss_moves code next).1 (handleConnectionLoss_moves code next).2

theorem Kept.connectThrew (h : s.Kept) (code : SerialBrokerErrorCode) :
    (s.connectThrew generation code).Kept := by
  unfold Supervisor.connectThrew
  split
  · exact h
  · exact h.handleConnectionLoss _ _

theorem Kept.listed (h : s.Kept) (hc : s.Current (some generation) (· = .listing))
    (found : Option PortId) :
    (s.listed config generation found).Kept := by
  unfold Supervisor.listed
  split
  · exact h
  rename_i hstale
  obtain ⟨-, -, -, hlisting⟩ := hc.of_not_stale hstale
  have hnone : s.state.openId? = none := by rw [hlisting]; rfl
  split
  · exact h.moves_of_none (Moves.wait (.refl s) id) hnone
  · split
    · exact h.moves_of_none (Moves.listPorts (.refl s) _) hnone
    · split
      · exact h.moves_of_none (Moves.recordFailedAttempt (.refl s)) hnone
      · refine h.moves_of_none (Moves.setStatus ?_ _) hnone
        exact .note ⟨rfl, rfl⟩ ⟨rfl, rfl⟩ rfl ⟨rfl, rfl⟩ rfl rfl rfl (Or.inr rfl)

theorem Kept.listingFailed (h : s.Kept) (isTimeout : Bool) :
    (s.listingFailed generation isTimeout).Kept := by
  unfold Supervisor.listingFailed
  split
  · exact h
  · split
    · exact h.handleConnectionLoss _ _
    · exact h.moves_of_state (Moves.report (.refl s) _ id) rfl

theorem Kept.readChunk (h : s.Kept) (bytes : Nat) :
    (s.readChunk config generation openId bytes).Kept := by
  unfold Supervisor.readChunk
  split
  · exact h
  split
  · exact h.moves_of_state (Moves.wait (.refl s) id) rfl
  dsimp only
  split
  · exact h.moves_of_state
      (Moves.callback (.note ⟨rfl, rfl⟩ ⟨rfl, rfl⟩ rfl ⟨rfl, rfl⟩ rfl rfl rfl (Or.inl rfl)) id) rfl
  · exact h.moves_of_state
      (Moves.wait (.note ⟨rfl, rfl⟩ ⟨rfl, rfl⟩ rfl ⟨rfl, rfl⟩ rfl rfl rfl (Or.inl rfl)) id) rfl

/-! ### beginning a close -/

/-- A close that begins has the port, once the state is left. -/
theorem Kept.trackTeardown (h : s.Kept) {state : ConnectionState} (hnone : state.openId? = none)
    (hleft : ∀ id, s.state.openId? = some id → id = openId) (step : CloseStep)
    (hlt : openId < s.opens.length)
    (hstep : step ≠ .waitingForOpen → s.Settled openId)
    (hfreed : (Closing.mk s.nextClose openId step).HasFreed s.locks) :
    ({ s.trackTeardown openId step with state } : Supervisor).Kept := by
  have hold : ∀ close ∈ s.closes, close ∈ (s.trackTeardown openId step).closes :=
    fun _ => List.mem_append_left _
  have hnew : Closing.mk s.nextClose openId step ∈ (s.trackTeardown openId step).closes :=
    List.mem_append_right _ (List.mem_singleton_self _)
  have hclose : ∀ close ∈ (s.trackTeardown openId step).closes, close ∈ s.closes ∨
      close = ⟨s.nextClose, openId, step⟩ :=
    fun close hclose => (List.mem_append.mp hclose).imp_right List.mem_singleton.mp
  refine { h with
    closeIds := ?_, closeIdsLt := ?_, teardown := ?_, settledClose := ?_
    settledOpen := fun _ _ hopen =>
      nomatch (congrArg ConnectionState.openId? hopen).symm.trans hnone
    stopState := fun _ _ _ hopen => nomatch hnone.symm.trans hopen
    owned := ?_, torndown := ?_, closesLt := ?_
    opening := fun _ _ hopening =>
      nomatch (congrArg ConnectionState.openId? hopening).symm.trans hnone
    freed := ?_ }
  · unfold KeyedList.Distinct Supervisor.trackTeardown
    rw [List.map_append, List.nodup_append]
    refine ⟨h.closeIds, by simp, fun a ha b hb => ?_⟩
    obtain ⟨close, hmem, rfl⟩ := List.mem_map.mp ha
    obtain rfl : b = s.nextClose := by simpa using hb
    exact Nat.ne_of_lt (h.closeIdsLt close hmem)
  · intro close hmem
    rcases hclose close hmem with hmem | rfl
    · exact Nat.lt_succ_of_lt (h.closeIdsLt close hmem)
    · exact Nat.lt_succ_self _
  · intro close hmem
    rcases hclose close hmem with hmem | rfl
    · exact List.mem_append_left _ (h.teardown close hmem)
    · exact List.mem_append_right _ (List.mem_singleton_self _)
  · intro close hmem hne
    rcases hclose close hmem with hmem | rfl
    · exact h.settledClose close hmem hne
    · exact hstep hne
  · intro call hcall hlive
    rcases h.owned call hcall hlive with hopen | ⟨close, hmem, hid⟩ | htask
    · exact Or.inr (Or.inl ⟨_, hnew, (hleft _ hopen).symm⟩)
    · exact Or.inr (Or.inl ⟨close, hold close hmem, hid⟩)
    · exact Or.inr (Or.inr htask)
  · intro closes htask call hcall hlive
    obtain ⟨close, hmem, hid⟩ := h.torndown closes htask call hcall hlive
    exact ⟨close, hold close hmem, hid⟩
  · intro close hmem
    rcases hclose close hmem with hmem | rfl
    · exact h.closesLt close hmem
    · exact hlt
  · intro close hmem
    rcases hclose close hmem with hmem | rfl
    · exact h.freed close hmem
    · exact hfreed

theorem settled_iff (hids : KeyedList.Distinct OpenCall.id s.opens) :
    s.Settled openId ↔ ∃ call ∈ s.opens, call.id = openId ∧ call.phase ≠ .pending := by
  unfold Settled phase?
  constructor
  · rintro ⟨phase, hphase, hne⟩
    obtain ⟨call, hcall, rfl⟩ := Option.map_eq_some_iff.mp hphase
    exact ⟨call, KeyedList.mem_of_lookup hcall, KeyedList.key_of_lookup hcall, hne⟩
  · rintro ⟨call, hcall, rfl, hne⟩
    exact ⟨call.phase, by rw [hids.lookup hcall]; rfl, hne⟩

theorem Kept.lt_of_settled (h : s.Kept) (hsettled : s.Settled openId) :
    openId < s.opens.length := by
  obtain ⟨call, hcall, rfl, -⟩ := (settled_iff h.ids).mp hsettled
  exact h.idsLt call hcall

/-- What the state has open is a close's when the state is left. -/
theorem Kept.leave (h : s.Kept) {state : ConnectionState} (hnone : state.openId? = none)
    (step : CloseStep)
    (hfreed : ∀ openId, (Closing.mk s.nextClose openId step).HasFreed s.locks) :
    ({ s.closeLost s.state step with state } : Supervisor).Kept := by
  cases hstate : s.state with
  | opening port openId =>
    obtain ⟨hlt, hlocks, -⟩ := h.opening port openId hstate
    refine h.trackTeardown hnone (fun id hid => ?_) .waitingForOpen hlt (fun hne =>
      absurd rfl hne) hlocks
    rw [hstate] at hid
    exact (Option.some.inj hid).symm
  | «open» port openId =>
    have hsettled := h.settledOpen port openId hstate
    refine h.trackTeardown hnone (fun id hid => ?_) step (h.lt_of_settled hsettled)
      (fun _ => hsettled) (hfreed openId)
    rw [hstate] at hid
    exact (Option.some.inj hid).symm
  | _ =>
    exact h.moves_of_none (.note ⟨rfl, rfl⟩ ⟨rfl, rfl⟩ rfl ⟨rfl, rfl⟩ rfl rfl rfl (Or.inr hnone))
      (by rw [hstate]; rfl)

theorem Kept.afterLoss (h : s.Kept) (next : AfterLoss) :
    (s.afterLoss config s.state next).Kept := by
  have hleft : ({ s.closeLost s.state .cancelling with state := .idle } : Supervisor).Kept :=
    h.leave rfl .cancelling fun _ => trivial
  cases next with
  | giveUp =>
    rw [afterLoss_giveUp]
    have hgaveUp := hleft.moves_of_none (Moves.giveUp (.refl _)) rfl
    exact hgaveUp
  | retry =>
    rw [afterLoss_retry]
    have hmoves : Moves _ (({ s.closeLost s.state .cancelling with
        state := .idle } : Supervisor).recordFailedAttempt config) :=
      Moves.recordFailedAttempt (.refl _)
    have hfailed := hleft.moves_of_none hmoves rfl
    exact hfailed

theorem Kept.followNow (h : s.Kept) : (s.followNow s.state).Kept := by
  have hleft : ({ s.closeLost s.state .draining with state := .idle } : Supervisor).Kept :=
    h.leave rfl .draining fun _ => trivial
  rw [followNow_eq]
  refine hleft.moves_of_none (Moves.connect ?_) rfl
  exact .note ⟨rfl, rfl⟩ ⟨rfl, rfl⟩ rfl ⟨rfl, rfl⟩ rfl rfl rfl (Or.inr rfl)

/-! ### stopping -/

theorem Kept.not_stopTask (h : s.Kept) (hstopped : s.hasStopped = false) (hstop : task.IsOfStop) :
    task ∉ s.tasks := fun htask =>
  Bool.false_ne_true (hstopped.symm.trans (h.stopTasks task htask hstop))

/-- `stop()` puts the state to stopped once everything open is somebody else's to close. -/
theorem Kept.halt (h : s.Kept) (timers : List TimerId)
    (hleaves : ∀ openId, s.state.openId? = some openId → s.HasClose openId) :
    ({ s with
    timers
    state := .stopped
    hasStopped := true
    isStopping := true } : Supervisor).Kept where
  ids := h.ids
  idsLt := h.idsLt
  closeIds := h.closeIds
  closeIdsLt := h.closeIdsLt
  teardown := h.teardown
  settledClose := h.settledClose
  settledOpen _ _ hstate := nomatch hstate
  settledTask := h.settledTask
  settledStop := h.settledStop
  stopsAt := h.stopsAt
  stopState _ _ _ hstate := nomatch hstate
  stopping := rfl
  stopTasks _ _ _ := rfl
  owned call hcall hlive := by
    rcases h.owned call hcall hlive with hstate | hclose | htask
    · exact Or.inr (Or.inl (hleaves _ hstate))
    · exact Or.inr (Or.inl hclose)
    · exact Or.inr (Or.inr htask)
  torndown := h.torndown
  answered hanswered := ⟨rfl, (h.answered hanswered).2⟩
  closesLt := h.closesLt
  locksLt := h.locksLt
  opening _ _ hstate := nomatch hstate
  freed := h.freed

/-- `stop()` waits for every close there is. -/
theorem Kept.awaitTeardown (h : s.Kept) (hstopped : s.hasStopped = true)
    (hall : ∀ call ∈ s.opens, call.phase.isLive → s.HasClose call.id) :
    (s.wait (.stopTeardown (s.teardown.getD []))).Kept := by
  have htasks : ∀ t ∈ (s.wait (.stopTeardown (s.teardown.getD []))).tasks, t ∈ s.tasks ∨
      t = .stopTeardown (s.teardown.getD []) :=
    fun t ht => (List.mem_append.mp ht).imp_right List.mem_singleton.mp
  have hstops : ∀ openId, (s.wait (.stopTeardown (s.teardown.getD []))).StopsAt openId →
      s.StopsAt openId := by
    rintro openId (htask | hframe)
    · rcases htasks _ htask with htask | htask
      · exact Or.inl htask
      · exact nomatch htask
    · exact Or.inr hframe
  refine { h with
    settledTask := fun g port openId htask => ?_, settledStop :=
      fun openId hat => h.settledStop openId (hstops openId hat)
    stopsAt := fun a b ha hb => h.stopsAt a b (hstops a ha) (hstops b hb)
    stopState := fun a b ha hb => h.stopState a b (hstops a ha) hb
    stopTasks := fun _ _ _ => hstopped
    owned := fun call hcall hlive => Or.inr (Or.inl (hall call hcall hlive))
    torndown := fun closes htask call hcall hlive => ?_, answered := fun hanswered => ?_ }
  · rcases htasks _ htask with htask | htask
    · exact h.settledTask g port openId htask
    · exact nomatch htask
  · rcases htasks _ htask with htask | htask
    · exact h.torndown closes htask call hcall hlive
    · obtain rfl := Task.stopTeardown.inj htask
      obtain ⟨close, hmem, hid⟩ := hall call hcall hlive
      exact ⟨close, hmem, hid, h.teardown close hmem⟩
  · refine h.answered ?_
    rcases hanswered with htask | hrest
    · rcases htasks _ htask with htask | htask
      · exact Or.inl htask
      · exact nomatch htask
    · exact Or.inr hrest

/-- `stop()` of a supervisor that is not open. -/
theorem Kept.stopNow_rest (h : s.Kept) (hstopped : s.hasStopped = false)
    (hopen : ∀ port openId, s.state ≠ .open port openId) :
    (s.stopNow s.state).Kept := by
  have hall : ∀ s' : Supervisor, s'.Kept → s'.state = .stopped → s'.tasks = s.tasks →
      ∀ call ∈ s'.opens, call.phase.isLive → s'.HasClose call.id := by
    intro s' h' hstate htasks call hcall hlive
    rcases h'.owned call hcall hlive with hopenId | hclose | htask
    · rw [hstate] at hopenId
      exact nomatch hopenId
    · exact hclose
    · exact absurd (htasks ▸ htask)
        (h.not_stopTask hstopped (show (Task.stopDraining call.id).IsOfStop from trivial))
  cases hstate : s.state with
  | «open» port openId => exact absurd hstate (hopen port openId)
  | opening port openId =>
    obtain ⟨hlt, hlocks, -⟩ := h.opening port openId hstate
    have hkept :
        ({ s.trackTeardown openId .waitingForOpen with state := .idle } : Supervisor).Kept := by
      refine h.trackTeardown rfl (fun id hid => ?_) .waitingForOpen hlt (fun hne =>
        absurd rfl hne) hlocks
      rw [hstate] at hid
      exact (Option.some.inj hid).symm
    have hhalt := hkept.halt s.timers nofun
    exact hhalt.awaitTeardown rfl (hall _ hhalt rfl rfl)
  | _ =>
    have hhalt : ∀ timers, ({ s with
        timers
        state := .stopped
        hasStopped := true
        isStopping := true } : Supervisor).Kept :=
      fun timers => h.halt timers fun openId' hid => by
        rw [hstate] at hid
        exact nomatch hid
    exact (hhalt _).awaitTeardown rfl (hall _ (hhalt _) rfl rfl)

/-- `stop()` of an open supervisor waits for the writes first; the port is its to close. -/
theorem Kept.stopNow_open (h : s.Kept) {port : PortId} (hsettled : s.Settled openId)
    (hstops : ∀ openId', s.StopsAt openId' → openId' = openId)
    (hstate : ∀ openId', s.state.openId? = some openId' → openId' = openId) :
    (s.stopNow (.open port openId)).Kept := by
  have htasks : ∀ t ∈ (s.stopNow (.open port openId)).tasks, t ∈ s.tasks ∨
      t = .stopDraining openId :=
    fun t ht => (List.mem_append.mp ht).imp_right List.mem_singleton.mp
  have hstops' : ∀ openId', (s.stopNow (.open port openId)).StopsAt openId' → openId' = openId := by
    rintro openId' (htask | hframe)
    · rcases htasks _ htask with htask | htask
      · exact hstops openId' (Or.inl htask)
      · exact Task.stopDraining.inj htask
    · exact hstops openId' (Or.inr hframe)
  refine { h with
    settledOpen := fun _ _ hopen => nomatch hopen
    settledTask := fun g port openId htask => ?_
    settledStop := fun openId' hat => hstops' openId' hat ▸ hsettled
    stopsAt := fun a b ha hb => (hstops' a ha).trans (hstops' b hb).symm
    stopState := fun _ _ _ hopen => nomatch hopen
    opening := fun _ _ hopening => nomatch hopening
    stopping := rfl
    stopTasks := fun _ _ _ => rfl
    owned := fun call hcall hlive => ?_
    torndown := fun closes htask => ?_, answered := fun hanswered => ⟨rfl, (h.answered ?_).2⟩ }
  · rcases htasks _ htask with htask | htask
    · exact h.settledTask g port openId htask
    · exact nomatch htask
  · rcases h.owned call hcall hlive with hopenId | hclose | htask
    · rw [hstate _ hopenId]
      exact Or.inr (Or.inr (List.mem_append_right _ (List.mem_singleton_self _)))
    · exact Or.inr (Or.inl hclose)
    · exact Or.inr (Or.inr (List.mem_append_left _ htask))
  · rcases htasks _ htask with htask | htask
    · exact h.torndown closes htask
    · exact nomatch htask
  · rcases hanswered with htask | hrest
    · rcases htasks _ htask with htask | htask
      · exact Or.inl htask
      · exact nomatch htask
    · exact Or.inr hrest

/-- While the bytes that are left are delivered, the port is still the state's. -/
theorem Kept.flushStop (h : s.Kept) {port : PortId} (hstate : s.state = .open port openId) :
    (({ s with buffered := 0 } : Supervisor).callback (.stopFlushed (.open port openId))).Kept := by
  have hframes : ∀ f ∈ (s.callback (.stopFlushed (.open port openId))).stack,
      f = .stopFlushed (.open port openId) ∨ f ∈ s.stack :=
    fun f hf => List.mem_cons.mp hf
  have hid : s.state.openId? = some openId := by rw [hstate]; rfl
  have hstops : ∀ openId', (s.callback (.stopFlushed (.open port openId))).StopsAt openId' →
      openId' = openId := by
    rintro openId' (htask | ⟨port', hframe⟩)
    · exact h.stopState _ _ (Or.inl htask) hid
    · rcases hframes _ hframe with hframe | hframe
      · injection hframe with hopen
        injection hopen
      · exact h.stopState _ _ (Or.inr ⟨port', hframe⟩) hid
  refine { h with
    settledStop := fun openId' hat => hstops openId' hat ▸ h.settledOpen port openId hstate
    stopsAt := fun a b ha hb => (hstops a ha).trans (hstops b hb).symm
    stopState := fun a b ha hb => (hstops a ha).trans (Option.some.inj (hid.symm.trans hb))
    answered := fun hanswered => h.answered ?_ }
  rcases hanswered with htask | hframe | hresolved
  · exact Or.inl htask
  · rcases hframes _ hframe with hframe | hframe
    · exact nomatch hframe
    · exact Or.inr (Or.inl hframe)
  · exact Or.inr (Or.inr hresolved)

theorem Kept.stop (h : s.Kept) : s.stop.Kept := by
  unfold Supervisor.stop
  split
  · exact h
  rename_i hstopping
  have hstopped : s.hasStopped = false := by rw [← h.stopping]; simpa using hstopping
  have hnext : ({ s with generation := s.generation + 1 } : Supervisor).Kept :=
    h.moves_of_state (.note ⟨rfl, rfl⟩ ⟨rfl, rfl⟩ rfl ⟨rfl, rfl⟩ rfl rfl rfl (Or.inl rfl)) rfl
  dsimp only
  split
  · rename_i port openId hstate
    have hid : s.state.openId? = some openId := by rw [hstate]; rfl
    split
    · exact hnext.flushStop hstate
    · refine hnext.stopNow_open (h.settledOpen port openId hstate) (fun openId' hat =>
        h.stopState _ _ hat hid) fun openId' hid' => ?_
      exact Option.some.inj (hid'.symm.trans hid)
  · rename_i hopen
    exact hnext.stopNow_rest hstopped hopen

/-- Once the writes are drained, or not in time, the port is a close's. -/
theorem Kept.stopDrained (h : s.Kept) (hstate : s.state = .stopped)
    (htask : .stopDraining openId ∈ s.tasks) :
    ((s.resumed (.stopDraining openId)).stopDrained openId).Kept := by
  have hstopped := h.stopTasks _ htask trivial
  have hat : s.StopsAt openId := Or.inl htask
  have hsettled := h.settledStop openId hat
  have hkept : (s.trackTeardown openId .cancelling).Kept := by
    refine h.trackTeardown (by rw [hstate]; rfl) (fun id hid => ?_) .cancelling
      (h.lt_of_settled hsettled) (fun _ => hsettled) trivial
    rw [hstate] at hid
    exact nomatch hid
  obtain ⟨close, hclose, hid⟩ : (s.trackTeardown openId .cancelling).HasClose openId :=
    ⟨_, List.mem_append_right _ (List.mem_singleton_self _), rfl⟩
  have hall : ∀ call ∈ s.opens, call.phase.isLive →
      (s.trackTeardown openId .cancelling).HasClose call.id := by
    intro call hcall hlive
    rcases hkept.owned call hcall hlive with hopenId | hhas | htask'
    · have hopenId : s.state.openId? = some call.id := hopenId
      rw [hstate] at hopenId
      exact nomatch hopenId
    · exact hhas
    · exact ⟨close, hclose, hid.trans (h.stopsAt openId call.id hat (Or.inl htask'))⟩
  have hresumed : ((s.resumed (.stopDraining openId)).trackTeardown openId .cancelling).Kept := by
    have htasks : ∀ t ∈ ((s.resumed (.stopDraining openId)).trackTeardown openId .cancelling).tasks,
        t ∈ s.tasks :=
      fun t ht => List.mem_of_mem_erase ht
    have hstops : ∀ openId', ((s.resumed (.stopDraining openId)).trackTeardown openId
        .cancelling).StopsAt openId' →
        s.StopsAt openId' := fun openId' hat => hat.imp_left (htasks _)
    exact { hkept with
      settledTask := fun g port openId htask => h.settledTask g port openId (htasks _ htask)
      settledStop := fun openId' hat => h.settledStop openId' (hstops openId' hat)
      stopsAt := fun a b ha hb => h.stopsAt a b (hstops a ha) (hstops b hb)
      stopState := fun a b ha hb => h.stopState a b (hstops a ha) hb
      stopTasks := fun t ht hstop => h.stopTasks t (htasks t ht) hstop
      owned := fun call hcall hlive => Or.inr (Or.inl (hall call hcall hlive))
      torndown := fun closes htask => hkept.torndown closes (htasks _ htask)
      answered := fun hanswered => h.answered (hanswered.imp_left (htasks _)) }
  exact hresumed.awaitTeardown hstopped hall

/-- Nothing is open any more once the closes that `stop()` waited for have finished. -/
theorem Kept.tornDown (h : s.Kept) {closes : List CloseId} (htask : .stopTeardown closes ∈ s.tasks)
    (hclosed : s.hasClosed closes = true) : ∀ call ∈ s.opens, call.phase.isLive = false := by
  intro call hcall
  by_contra hlive
  obtain ⟨close, hmem, -, hid⟩ := h.torndown closes htask call hcall (by simpa using hlive)
  have hfinished := List.all_eq_true.mp hclosed close hmem
  exact (of_decide_eq_true hfinished) hid

theorem resumed_moves (htask : ∀ openId, task ≠ .stopDraining openId) : Moves s (s.resumed task) :=
  { SameAccounts.refl s with
    tasks := fun _ ht _ => List.mem_of_mem_erase ht
    draining := fun openId hdraining => (List.mem_erase_of_ne (htask openId).symm).mpr hdraining
    state := Or.inl rfl }

theorem Kept.resumed (h : s.Kept) (htask : ∀ openId, task ≠ .stopDraining openId) :
    (s.resumed task).Kept :=
  h.moves_of_state (resumed_moves htask) rfl

/-- `stop()` goes on when everything is closed. -/
theorem Kept.waitAnswered (h : s.Kept) (hstopped : s.hasStopped = true)
    (hclosed : ∀ call ∈ s.opens, call.phase.isLive = false) :
    (s.wait .stopAnswered).Kept := by
  have htasks : ∀ t ∈ (s.wait .stopAnswered).tasks, t ∈ s.tasks ∨ t = .stopAnswered :=
    fun t ht => (List.mem_append.mp ht).imp_right List.mem_singleton.mp
  have hstops : ∀ openId, (s.wait .stopAnswered).StopsAt openId → s.StopsAt openId := by
    rintro openId (htask | hframe)
    · rcases htasks _ htask with htask | htask
      · exact Or.inl htask
      · exact nomatch htask
    · exact Or.inr hframe
  refine { h with
    settledTask := fun g port openId htask => ?_, settledStop :=
      fun openId hat => h.settledStop openId (hstops openId hat)
    stopsAt := fun a b ha hb => h.stopsAt a b (hstops a ha) (hstops b hb)
    stopState := fun a b ha hb => h.stopState a b (hstops a ha) hb
    stopTasks := fun _ _ _ => hstopped
    owned := fun call hcall hlive =>
      absurd hlive (by rw [hclosed call hcall]; exact Bool.false_ne_true)
    torndown := fun closes htask => ?_
    answered := fun _ => ⟨hstopped, hclosed⟩ }
  · rcases htasks _ htask with htask | htask
    · exact h.settledTask g port openId htask
    · exact nomatch htask
  · rcases htasks _ htask with htask | htask
    · exact h.torndown closes htask
    · exact nomatch htask

/-- `stop()` resolves, or reports first. -/
theorem Kept.stopEnd (h : s.Kept)
    (hanswered : s.hasStopped = true ∧ ∀ call ∈ s.opens, call.phase.isLive = false) :
    s.stopEnd.Kept := by
  unfold Supervisor.stopEnd
  split
  · exact { h with answered := fun _ => hanswered }
  · have hstops : ∀ openId, (({ s with status := .idle } : Supervisor).callback
        .stopReported).StopsAt openId → s.StopsAt openId := by
      rintro openId (htask | ⟨port, hframe⟩)
      · exact Or.inl htask
      · rcases List.mem_cons.mp hframe with hframe | hframe
        · exact nomatch hframe
        · exact Or.inr ⟨port, hframe⟩
    exact { h with
      settledStop := fun openId hat => h.settledStop openId (hstops openId hat)
      stopsAt := fun a b ha hb => h.stopsAt a b (hstops a ha) (hstops b hb)
      stopState := fun a b ha hb => h.stopState a b (hstops a ha) hb
      answered := fun _ => hanswered }

/-! ### opening and closing -/

theorem Kept.phase?_eq (h : s.Kept) {call : OpenCall} (hcall : call ∈ s.opens) :
    s.phase? call.id = some call.phase := by
  unfold phase?
  rw [h.ids.lookup hcall]
  rfl

/-- Another call of `open()`, which the state has unless it failed. -/
theorem Kept.addOpen (h : s.Kept) (port : PortId) (phase : OpenPhase) (state : ConnectionState)
    (hstopped : s.hasStopped = false)
    (hnone : s.state.openId? = none) (hstack : s.stack = [])
    (hstate : state = .opening port s.opens.length ∨ state = s.state ∧ phase = .failed) :
    ({ s with
      foundPort := some port, foundPortDetached := false, state
      opens := s.opens ++ [OpenCall.mk s.opens.length port phase s.hasStopped] } :
        Supervisor).Kept := by
  have hids : KeyedList.Distinct OpenCall.id
      (s.opens ++ [OpenCall.mk s.opens.length port phase s.hasStopped]) := by
    unfold KeyedList.Distinct
    rw [List.map_append, List.nodup_append]
    refine ⟨h.ids, by simp, fun a ha b hb => ?_⟩
    obtain ⟨call, hmem, rfl⟩ := List.mem_map.mp ha
    obtain rfl : b = s.opens.length := by simpa using hb
    exact Nat.ne_of_lt (h.idsLt call hmem)
  have hsettled : ∀ openId, s.Settled openId → ({ s with
      foundPort := some port, foundPortDetached := false, state
      opens := s.opens ++ [OpenCall.mk s.opens.length port phase s.hasStopped] } :
        Supervisor).Settled openId := by
    intro openId hsettled
    obtain ⟨call, hcall, hrest⟩ := (settled_iff h.ids).mp hsettled
    exact (settled_iff hids).mpr ⟨call, List.mem_append_left _ hcall, hrest⟩
  have hstops : ∀ openId, ¬ s.StopsAt openId := by
    rintro openId (htask | ⟨port, hframe⟩)
    · exact h.not_stopTask hstopped (show (Task.stopDraining openId).IsOfStop from trivial) htask
    · rw [hstack] at hframe
      exact absurd hframe List.not_mem_nil
  refine { h with
    ids := hids
    idsLt := fun call hcall => ?_
    settledClose := fun close hclose hne => hsettled _ (h.settledClose close hclose hne)
    settledOpen := fun port openId hopen => ?_
    settledTask := fun g port openId htask => hsettled _ (h.settledTask g port openId htask)
    settledStop := fun openId hat => absurd hat (hstops openId)
    stopState := fun openId _ hat => absurd hat (hstops openId)
    owned := fun call hcall hlive => ?_
    torndown := fun closes htask =>
      absurd htask (h.not_stopTask hstopped (show (Task.stopTeardown closes).IsOfStop from trivial))
    answered := fun hanswered => Bool.noConfusion (hstopped.symm.trans (h.answered hanswered).1)
    closesLt := fun close hclose =>
      List.length_append ▸ Nat.lt_add_right _ (h.closesLt close hclose)
    locksLt := fun lock hlock => List.length_append ▸ Nat.lt_add_right _ (h.locksLt lock hlock)
    opening := fun port' openId hopening => ?_ }
  · rw [List.length_append]
    rcases List.mem_append.mp hcall with hcall | hcall
    · exact Nat.lt_add_right _ (h.idsLt call hcall)
    · obtain rfl := List.mem_singleton.mp hcall
      exact Nat.lt_succ_self _
  · rcases hstate with rfl | ⟨rfl, -⟩
    · exact nomatch hopen
    · rw [show s.state = .open port openId from hopen] at hnone
      exact nomatch hnone
  · rcases List.mem_append.mp hcall with hcall | hcall
    · refine Or.inr ((h.owned call hcall hlive).resolve_left fun hid => ?_)
      exact nomatch hnone.symm.trans hid
    · obtain rfl := List.mem_singleton.mp hcall
      rcases hstate with rfl | ⟨-, rfl⟩
      · exact Or.inl rfl
      · exact nomatch hlive
  · rcases hstate with rfl | ⟨rfl, -⟩
    · obtain ⟨-, rfl⟩ := ConnectionState.opening.inj hopening
      exact ⟨by simp, fun lock hlock => Nat.ne_of_lt (h.locksLt lock hlock), fun close hclose =>
        Nat.ne_of_lt (h.closesLt close hclose)⟩
    · rw [show s.state = .opening port' openId from hopening] at hnone
      exact nomatch hnone

theorem Kept.openPort (h : s.Kept) (hbase : s.Base)
    (hc : s.Current (some generation) (· = .listing)) (hstack : s.stack = [])
    (hstale : s.isStale generation = false) (port : PortId) :
    (s.openPort generation port).Kept := by
  obtain ⟨-, -, hstate, hlisting⟩ := hc.of_not_stale (Bool.eq_false_iff.mp hstale)
  have hadd := h.addOpen port .pending (.opening port s.opens.length) (hbase.not_hasStopped hstate)
      (by rw [hlisting]; rfl) hstack
    (Or.inl rfl)
  exact hadd.moves_of_state (Moves.wait (.refl _) id) rfl

theorem Kept.openPortThrew (h : s.Kept) (hbase : s.Base)
    (hc : s.Current (some generation) (· = .listing))
    (hstack : s.stack = []) (hstale : s.isStale generation = false) (port : PortId)
    (code : SerialBrokerErrorCode) :
    (s.openPortThrew generation port code).Kept := by
  obtain ⟨-, -, hstate, hlisting⟩ := hc.of_not_stale (Bool.eq_false_iff.mp hstale)
  have hadd := h.addOpen port .failed s.state (hbase.not_hasStopped hstate) (by rw [hlisting]; rfl)
    hstack (Or.inr ⟨rfl, rfl⟩)
  exact hadd.connectThrew code

/-- The port of an attempt that goes on has opened. -/
theorem Kept.openSucceeded (h : s.Kept) (port : PortId) (hopened : s.phase? openId = some .opened) :
    (s.openSucceeded generation port openId).Kept := by
  unfold Supervisor.openSucceeded
  split
  · exact h
  have htasks : ∀ t ∈ (s.wait (.openedPort generation port openId)).tasks, t ∈ s.tasks ∨
      t = .openedPort generation port openId :=
    fun t ht => (List.mem_append.mp ht).imp_right List.mem_singleton.mp
  have hstops : ∀ openId', (s.wait (.openedPort generation port openId)).StopsAt openId' →
      s.StopsAt openId' := by
    rintro openId' (htask | hframe)
    · rcases htasks _ htask with htask | htask
      · exact Or.inl htask
      · exact nomatch htask
    · exact Or.inr hframe
  refine { h with
    settledTask := fun g port' openId' htask => ?_, settledStop :=
      fun openId hat => h.settledStop openId (hstops openId hat)
    stopsAt := fun a b ha hb => h.stopsAt a b (hstops a ha) (hstops b hb)
    stopState := fun a b ha hb => h.stopState a b (hstops a ha) hb
    stopTasks := fun t ht hstop => ?_
    owned := fun call hcall hlive =>
      (h.owned call hcall hlive).imp_right (Or.imp_right (List.mem_append_left _))
    torndown := fun closes htask => ?_
    answered := fun hanswered => h.answered ?_ }
  · rcases htasks _ htask with htask | htask
    · exact h.settledTask g port' openId' htask
    · obtain ⟨-, -, rfl⟩ := Task.openedPort.inj htask
      exact ⟨.opened, hopened, nofun⟩
  · rcases htasks _ ht with ht | rfl
    · exact h.stopTasks t ht hstop
    · exact absurd hstop id
  · rcases htasks _ htask with htask | htask
    · exact h.torndown closes htask
    · exact nomatch htask
  · rcases hanswered with htask | hrest
    · rcases htasks _ htask with htask | htask
      · exact Or.inl htask
      · exact nomatch htask
    · exact Or.inr hrest

/-- The streams of a port are taken that no attempt opens any more and no close has begun with. -/
theorem Kept.lockStreams (h : s.Kept) (locks : List StreamLock)
    (hlt : ∀ lock ∈ locks, lock.openId < s.opens.length)
    (hstate : ∀ port openId, s.state ≠ .opening port openId)
    (hcloses : ∀ lock ∈ locks, ∀ close ∈ s.closes, close.openId ≠ lock.openId) :
    (s.lockStreams locks).Kept := by
  refine { h with
    locksLt := fun lock hlock => (List.mem_append.mp hlock).elim (h.locksLt lock) (hlt lock)
    opening := fun port openId hopening => absurd hopening (hstate port openId)
    freed := fun close hclose => ?_ }
  have hnew : ∀ lock ∈ locks, lock.openId ≠ close.openId :=
    fun lock hlock => (hcloses lock hlock close hclose).symm
  have hold := h.freed close hclose
  unfold Closing.HasFreed at hold ⊢
  cases hstep : close.step with
  | draining | cancelling => trivial
  | aborting =>
    rw [hstep] at hold
    exact fun hlock => (List.mem_append.mp hlock).elim hold fun hlock => hnew _ hlock rfl
  | waitingForOpen | closing =>
    rw [hstep] at hold
    exact fun lock hlock => (List.mem_append.mp hlock).elim (hold lock) (hnew lock)

theorem Kept.startReading (h : s.Kept) {port : PortId}
    (hc : s.Current (some generation) (· = .opening port openId))
    (hsettled : s.Settled openId) (hstale : s.isStale generation = false) (isMissing : Bool) :
    (s.startReading generation port openId isMissing).Kept := by
  obtain ⟨-, -, -, hopening⟩ := hc.of_not_stale (Bool.eq_false_iff.mp hstale)
  unfold Supervisor.startReading
  split
  · exact h.handleConnectionLoss _ _
  obtain ⟨hlt, -, hcloses⟩ := h.opening port openId hopening
  have hentered : ({ s with
      state := .open port openId, buffered := 0
      backoff := s.backoff.recordConnected s.monotonicNow } : Supervisor).Kept := by
    have hsame : s.state.openId? = (ConnectionState.open port
      openId).openId? := by rw [hopening]; rfl
    refine h.of_same ⟨rfl, rfl, rfl, rfl, rfl, rfl, rfl, rfl, fun _ h _ => h, fun _ h => h,
        fun _ h _ => h⟩
      (fun id hid => hsame.trans hid) (fun id hid => Or.inl (hsame.symm.trans hid))
        (fun port' openId' hstate => ?_) nofun
    obtain ⟨-, rfl⟩ := ConnectionState.open.inj hstate
    exact hsettled
  have hids : ∀ lock ∈ [StreamLock.reader openId, .writer openId],
    lock.openId = openId := by simp [StreamLock.openId]
  have hopen := hentered.lockStreams [.reader openId, .writer openId] (fun lock hlock =>
      hids lock hlock ▸ hlt) nofun
    fun lock hlock close hclose => hids lock hlock ▸ hcloses close hclose
  dsimp only
  split
  · exact hopen.moves_of_state (Moves.wait (.refl _) id) rfl
  · refine hopen.moves_of_state (Moves.callback ?_ id) rfl
    exact .note ⟨rfl, rfl⟩ ⟨rfl, rfl⟩ rfl ⟨rfl, rfl⟩ rfl rfl rfl (Or.inl rfl)

/-- `open()` settles, or the port is closed. -/
theorem Kept.setPhase (h : s.Kept) (openId : OpenId) (phase : OpenPhase) (hne : phase ≠ .pending)
    (hlive : ∀ call ∈ s.opens, call.id = openId → phase.isLive → call.phase.isLive) :
    (s.setPhase openId phase).Kept := by
  have hids : KeyedList.Distinct OpenCall.id (s.setPhase openId phase).opens :=
    h.ids.adjust fun _ _ _ => rfl
  have hlength : (s.setPhase openId phase).opens.length = s.opens.length := KeyedList.length_adjust
  have hcalls : ∀ call ∈ (s.setPhase openId phase).opens, ∃ old ∈ s.opens, call.id = old.id ∧
      (call.phase.isLive → old.phase.isLive) := by
    intro call hcall
    obtain ⟨old, hold, rfl⟩ := KeyedList.mem_adjust.mp hcall
    refine ⟨old, hold, ?_⟩
    split
    · rename_i hid
      exact ⟨rfl, hlive old hold hid⟩
    · exact ⟨rfl, id⟩
  have hsettled : ∀ openId', s.Settled openId' → (s.setPhase openId phase).Settled openId' := by
    intro openId' hsettled
    obtain ⟨call, hcall, hid, hphase⟩ := (settled_iff h.ids).mp hsettled
    refine (settled_iff hids).mpr ⟨_, KeyedList.mem_adjust.mpr ⟨call, hcall, rfl⟩, ?_⟩
    split
    · exact ⟨hid, hne⟩
    · exact ⟨hid, hphase⟩
  refine { h with
    ids := hids
    idsLt := fun call hcall => ?_
    settledClose := fun close hclose hne => hsettled _ (h.settledClose close hclose hne)
    settledOpen := fun port openId hopen => hsettled _ (h.settledOpen port openId hopen)
    settledTask := fun g port openId htask => hsettled _ (h.settledTask g port openId htask)
    settledStop := fun openId hat => hsettled _ (h.settledStop openId hat)
    owned := fun call hcall hlive => ?_
    torndown := fun closes htask call hcall hlive => ?_
    answered := fun hanswered => ⟨(h.answered hanswered).1, fun call hcall => ?_⟩
    closesLt := by rw [hlength]; exact h.closesLt
    locksLt := by rw [hlength]; exact h.locksLt
    opening := by rw [hlength]; exact h.opening }
  · obtain ⟨old, hold, hid, -⟩ := hcalls call hcall
    rw [hlength, hid]
    exact h.idsLt old hold
  · obtain ⟨old, hold, hid, hlive'⟩ := hcalls call hcall
    rw [hid]
    exact h.owned old hold (hlive' hlive)
  · obtain ⟨old, hold, hid, hlive'⟩ := hcalls call hcall
    rw [hid]
    exact h.torndown closes htask old hold (hlive' hlive)
  · obtain ⟨old, hold, -, hlive'⟩ := hcalls call hcall
    exact Bool.eq_false_iff.mpr fun hlive =>
      Bool.noConfusion (((h.answered hanswered).2 old hold).symm.trans (hlive' hlive))

theorem Kept.releaseLock (h : s.Kept) (lock : StreamLock) : (s.releaseLock lock).Kept := by
  have hsub : (s.releaseLock lock).locks ⊆ s.locks := fun _ hlock => (List.mem_filter.mp hlock).1
  exact { h with
    locksLt := fun lock' hlock => h.locksLt lock' (hsub hlock)
    opening := fun port openId hopening => by
      obtain ⟨hlt, hlocks, hcloses⟩ := h.opening port openId hopening
      exact ⟨hlt, fun lock' hlock => hlocks lock' (hsub hlock), hcloses⟩
    freed := fun close hclose => (h.freed close hclose).mono hsub }

theorem Kept.enterStep (h : s.Kept) {close : Closing} {step : CloseStep} (hclose : close ∈ s.closes)
    (hsettled : s.Settled close.openId)
    (hfreed : ({ close with step } : Closing).HasFreed s.locks) :
    (s.enterStep close step).Kept := by
  have hcloses : ∀ c ∈ (s.enterStep close step).closes, ∃ old ∈ s.closes, c.id = old.id ∧
      c.openId = old.openId ∧
      (c = old ∨ s.Settled old.openId ∧ c.HasFreed s.locks) := by
    intro c hc
    obtain ⟨old, hold, rfl⟩ := KeyedList.mem_adjust.mp hc
    refine ⟨old, hold, ?_⟩
    split
    · rename_i hid
      rw [h.closeIds.eq_of_mem hold hclose hid]
      exact ⟨rfl, rfl, Or.inr ⟨hsettled, hfreed⟩⟩
    · exact ⟨rfl, rfl, Or.inl rfl⟩
  have hhas : ∀ old ∈ s.closes, ∃ c ∈ (s.enterStep close step).closes, c.id = old.id ∧
      c.openId = old.openId := by
    intro old hold
    refine ⟨_, KeyedList.mem_adjust.mpr ⟨old, hold, rfl⟩, ?_⟩
    split
    · exact ⟨rfl, rfl⟩
    · exact ⟨rfl, rfl⟩
  refine { h with
    closeIds := h.closeIds.adjust fun _ _ _ => rfl
    closeIdsLt := fun c hc => ?_, teardown := fun c hc => ?_, settledClose := fun c hc hne => ?_
    owned := fun call hcall hlive => ?_, torndown := fun closes htask call hcall hlive => ?_
    closesLt := fun c hc => ?_, opening := fun port openId hopening => ?_, freed := fun c hc => ?_ }
  · obtain ⟨old, hold, hid, -⟩ := hcloses c hc
    exact hid ▸ h.closeIdsLt old hold
  · obtain ⟨old, hold, hid, -⟩ := hcloses c hc
    exact hid ▸ h.teardown old hold
  · obtain ⟨old, hold, -, hopenId, rfl | ⟨hsettled, -⟩⟩ := hcloses c hc
    · exact h.settledClose c hold hne
    · exact hopenId ▸ hsettled
  · refine (h.owned call hcall hlive).imp_right (Or.imp_left ?_)
    rintro ⟨old, hold, hid⟩
    obtain ⟨c, hc, -, hopenId⟩ := hhas old hold
    exact ⟨c, hc, hopenId.trans hid⟩
  · obtain ⟨old, hold, hopenId, hmem⟩ := h.torndown closes htask call hcall hlive
    obtain ⟨c, hc, hid, hopenId'⟩ := hhas old hold
    exact ⟨c, hc, hopenId'.trans hopenId, hid ▸ hmem⟩
  · obtain ⟨old, hold, -, hopenId, -⟩ := hcloses c hc
    exact hopenId ▸ h.closesLt old hold
  · obtain ⟨hlt, hlocks, hnone⟩ := h.opening port openId hopening
    refine ⟨hlt, hlocks, fun c hc => ?_⟩
    obtain ⟨old, hold, -, hopenId, -⟩ := hcloses c hc
    exact hopenId ▸ hnone old hold
  · obtain ⟨old, hold, -, -, rfl | ⟨-, hfreed⟩⟩ := hcloses c hc
    · exact h.freed c hold
    · exact hfreed

/-- A close that finishes has nothing left to close. -/
theorem Kept.finishClose (h : s.Kept) {close : Closing} (hclose : close ∈ s.closes)
    (hdead : ∀ call ∈ s.opens, call.id = close.openId → call.phase.isLive = false) :
    (s.finishClose close).Kept := by
  have hstays : ∀ call ∈ s.opens, call.phase.isLive → ∀ c ∈ s.closes, c.openId = call.id →
      c ∈ (s.finishClose close).closes := by
    intro call hcall hlive c hc hopenId
    refine KeyedList.mem_erase.mpr ⟨hc, fun hid => ?_⟩
    obtain rfl := h.closeIds.eq_of_mem hc hclose hid
    exact Bool.noConfusion ((hdead call hcall hopenId.symm).symm.trans hlive)
  refine { h with
    closeIds := h.closeIds.erase
    closeIdsLt := fun c hc => h.closeIdsLt c (KeyedList.mem_erase.mp hc).1
    teardown := fun c hc => h.teardown c (KeyedList.mem_erase.mp hc).1
    settledClose := fun c hc hne => h.settledClose c (KeyedList.mem_erase.mp hc).1 hne
    closesLt := fun c hc => h.closesLt c (KeyedList.mem_erase.mp hc).1
    freed := fun c hc => h.freed c (KeyedList.mem_erase.mp hc).1
    opening := fun port openId hopening => by
      obtain ⟨hlt, hlocks, hnone⟩ := h.opening port openId hopening
      exact ⟨hlt, hlocks, fun c hc => hnone c (KeyedList.mem_erase.mp hc).1⟩
    owned := fun call hcall hlive => ?_, torndown := fun closes htask call hcall hlive => ?_ }
  · refine (h.owned call hcall hlive).imp_right (Or.imp_left ?_)
    rintro ⟨c, hc, hid⟩
    exact ⟨c, hstays call hcall hlive c hc hid, hid⟩
  · obtain ⟨c, hc, hopenId, hmem⟩ := h.torndown closes htask call hcall hlive
    exact ⟨c, hstays call hcall hlive c hc hopenId, hopenId, hmem⟩

/-- A step of a close that ends in time; `close()` is refused only where a stream is locked, and
none is. -/
theorem Kept.closeStepEnded (h : s.Kept) {close : Closing} {how : StepEnd}
    (hclose : close ∈ s.closes) (hintime : how ≠ .timedOut)
    (hrefuses : how = .rejected → close.step = .closing → s.phase? close.openId = some .opened →
      s.isLocked close.openId = true)
    (hended : s.closeStepEnded close how = some s') : s'.Kept := by
  have hphase : ∀ {phase}, s.phase? close.openId = some phase →
      ∀ call ∈ s.opens, call.id = close.openId →
      call.phase = phase := fun hphase call hcall hid =>
    Option.some.inj ((h.phase?_eq hcall).symm.trans (hid ▸ hphase))
  have hfreed := h.freed close hclose
  have hreleased := fun lock : StreamLock => h.releaseLock lock
  unfold Closing.HasFreed at hfreed
  unfold Supervisor.closeStepEnded at hended
  split at hended
  · rename_i hstep
    exact Option.some.inj hended ▸
      h.enterStep hclose (h.settledClose close hclose (by rw [hstep]; nofun)) trivial
  · rename_i hstep
    refine Option.some.inj hended ▸
      (hreleased _).enterStep hclose (h.settledClose close hclose (by rw [hstep]; nofun)) ?_
    exact fun hlock => of_decide_eq_true (List.mem_filter.mp hlock).2 rfl
  · rename_i hstep
    rw [hstep] at hfreed
    refine Option.some.inj hended ▸
      (hreleased _).enterStep hclose (h.settledClose close hclose (by rw [hstep]; nofun)) ?_
    intro lock hlock hid
    obtain ⟨hmem, hne⟩ := List.mem_filter.mp hlock
    cases lock with
    | reader openId => exact hfreed (hid ▸ hmem)
    | writer openId => exact of_decide_eq_true hne (congrArg StreamLock.writer hid)
  · rename_i hstep
    rw [hstep] at hfreed
    split at hended
    · exact absurd rfl hintime
    · rename_i hopened
      exact Option.some.inj hended ▸ h.enterStep hclose ⟨_, hopened, nofun⟩ hfreed
    · rename_i hclosed
      exact Option.some.inj hended ▸ h.enterStep hclose ⟨_, hclosed, nofun⟩ hfreed
    · rename_i hfailed
      refine Option.some.inj hended ▸ h.finishClose hclose fun call hcall hid => ?_
      rw [hphase hfailed call hcall hid]
      rfl
    · exact nomatch hended
  · rename_i hstep
    rw [hstep] at hfreed
    obtain ⟨phase, hsettled, hne⟩ := h.settledClose close hclose (by rw [hstep]; nofun)
    split at hended
    · refine Option.some.inj (Option.ite_none_left_eq_some.mp hended).2 ▸
        (h.setPhase close.openId .closed nofun fun _ _ _ hlive => nomatch hlive).finishClose hclose
          fun call hcall hid => ?_
      obtain ⟨old, -, rfl⟩ := KeyedList.mem_adjust.mp hcall
      split at hid
      · rename_i hold
        rw [if_pos hold]
        rfl
      · rename_i hold
        exact absurd hid hold
    · rename_i hnot
      refine Option.some.inj hended ▸ h.finishClose hclose fun call hcall hid => ?_
      rw [hphase hsettled call hcall hid]
      cases phase with
      | pending => exact absurd rfl hne
      | opened =>
        cases how with
        | settled => exact absurd ⟨rfl, hsettled⟩ hnot
        | rejected =>
          obtain ⟨lock, hlock, hid⟩ := List.any_eq_true.mp (hrefuses rfl hstep hsettled)
          exact absurd (of_decide_eq_true hid) (hfreed lock hlock)
        | timedOut => exact absurd rfl hintime
      | failed => rfl
      | closed => rfl

/-! ### every step -/

theorem Kept.start (h : s.Kept) (isFailed : Bool) : (s.start isFailed).Kept := by
  unfold Supervisor.start
  split
  · exact h
  rename_i hidle
  have hnone : s.state.openId? = none := by rw [not_not.mp hidle]; rfl
  split
  · refine h.moves_of_none (Moves.setStatus ?_ _) hnone
    exact .note ⟨rfl, rfl⟩ ⟨rfl, rfl⟩ rfl ⟨rfl, rfl⟩ rfl rfl rfl (Or.inr rfl)
  · exact h.moves_of_none (Moves.connect (.refl s)) hnone

/-- A new attempt where nothing is open. -/
theorem Kept.connectAgain (h : s.Kept) (hnone : s.state.openId? = none) (timers : List TimerId) :
    ({ s with timers, backoff := .reset, state := .idle } : Supervisor).connect.Kept := by
  refine h.moves_of_none (Moves.connect ?_) hnone
  exact .note ⟨rfl, rfl⟩ ⟨rfl, rfl⟩ rfl ⟨rfl, rfl⟩ rfl rfl rfl (Or.inr rfl)

theorem Kept.retry (h : s.Kept) : s.retry.Kept := by
  unfold Supervisor.retry
  split
  · rename_i hstate
    exact h.connectAgain (by rcases hstate with hstate | hstate <;> rw [hstate] <;> rfl) s.timers
  · exact h

theorem Kept.useGrantedPort (h : s.Kept) : s.useGrantedPort.Kept := by
  unfold Supervisor.useGrantedPort
  split
  · exact h
  · exact h
  · exact h
  · rename_i timer hstate
    exact h.connectAgain (by rw [hstate]; rfl) _
  · rename_i hstopped hopen hopening hreconnecting
    refine h.connectAgain ?_ s.timers
    cases hstate : s.state with
    | opening port openId => exact absurd hstate (hopening port openId)
    | «open» port openId => exact absurd hstate (hopen port openId)
    | _ => rfl

theorem Kept.followDevice (h : s.Kept) (matchesDevice : Bool) :
    (s.followDevice matchesDevice).Kept := by
  have hnext : ({ s with
      generation := s.generation + 1, foundPort := none, foundPortDetached :=
        false } : Supervisor).Kept :=
    h.moves_of_state (.note ⟨rfl, rfl⟩ ⟨rfl, rfl⟩ rfl ⟨rfl, rfl⟩ rfl rfl rfl (Or.inl rfl)) rfl
  unfold Supervisor.followDevice
  split
  · exact h
  · rename_i hstate
    split
    · exact h
    · exact hstate ▸ hnext.followNow
  · rename_i hstate
    split
    · exact h
    dsimp only
    split
    · refine hnext.moves_of_state (Moves.callback ?_ id) rfl
      exact .note ⟨rfl, rfl⟩ ⟨rfl, rfl⟩ rfl ⟨rfl, rfl⟩ rfl rfl rfl (Or.inl rfl)
    · exact hstate ▸ hnext.followNow
  · rename_i timer hstate
    exact hnext.connectAgain (by rw [hstate]; rfl) _
  · exact hnext.followNow

theorem Kept.perform (h : s.Kept) (call : SupervisorCall) : (s.perform call).Kept := by
  cases call with
  | start isFailed => exact h.start isFailed
  | stop => exact h.stop
  | retry => exact h.retry
  | useGrantedPort => exact h.useGrantedPort
  | followDevice matchesDevice => exact h.followDevice matchesDevice

theorem Kept.handleDeviceConnected (h : s.Kept) : (s.handleDeviceConnected config).Kept := by
  have hnote : ({ s with foundPortDetached := false } : Supervisor).Kept :=
    h.moves_of_state (.note ⟨rfl, rfl⟩ ⟨rfl, rfl⟩ rfl ⟨rfl, rfl⟩ rfl rfl rfl (Or.inl rfl)) rfl
  unfold Supervisor.handleDeviceConnected
  dsimp only
  split
  · exact h.moves_of_state (.note ⟨rfl, rfl⟩ ⟨rfl, rfl⟩ rfl ⟨rfl, rfl⟩ rfl rfl rfl (Or.inl rfl)) rfl
  · rename_i timer hstate
    refine h.moves_of_none (Moves.connect ?_) (by rw [hstate]; rfl)
    exact .note ⟨rfl, rfl⟩ ⟨rfl, rfl⟩ rfl ⟨rfl, rfl⟩ rfl rfl rfl (Or.inl rfl)
  · rename_i hstate
    split
    · exact hnote
    · exact hnote.connectAgain (by rw [hstate]; rfl) s.timers
  · rename_i hstate
    exact hnote.connectAgain (by rw [hstate]; rfl) s.timers
  · exact hnote

theorem Kept.handleDeviceDisconnected (h : s.Kept) (port : Option PortId) :
    (s.handleDeviceDisconnected config port).Kept := by
  have hnote : ({ s with foundPortDetached := true } : Supervisor).Kept :=
    h.moves_of_state (.note ⟨rfl, rfl⟩ ⟨rfl, rfl⟩ rfl ⟨rfl, rfl⟩ rfl rfl rfl (Or.inl rfl)) rfl
  unfold Supervisor.handleDeviceDisconnected
  split
  · exact h
  dsimp only
  split
  · exact hnote.handleConnectionLoss _ _
  · exact hnote.handleConnectionLoss _ _
  · rename_i hstate
    exact hnote.moves_of_none (Moves.recordFailedAttempt (.refl _)) (by rw [hstate]; rfl)
  · exact hnote

theorem Kept.timerFired (h : s.Kept) (timer : TimerId) : (s.clearTimer timer).timerFired.Kept := by
  have hclear : Moves s (s.clearTimer timer) :=
    .note ⟨rfl, rfl⟩ ⟨rfl, rfl⟩ rfl ⟨rfl, rfl⟩ rfl rfl rfl (Or.inl rfl)
  unfold Supervisor.timerFired
  split
  · rename_i timer' hstate
    exact h.moves_of_none hclear.connect (by rw [show s.state = _ from hstate]; rfl)
  · exact h.moves_of_state hclear rfl

theorem Kept.writeFailed (h : s.Kept) : (s.writeFailed openId).Kept := by
  unfold Supervisor.writeFailed
  split
  · split
    · exact h.handleConnectionLoss _ _
    · exact h
  · exact h

theorem Kept.readEnded (h : s.Kept) (code : SerialBrokerErrorCode) :
    (s.readEnded generation code).Kept := by
  unfold Supervisor.readEnded
  split
  · exact h
  · exact h.handleConnectionLoss _ _

theorem Kept.goOn {stack : List Frame} (h : s.Kept) (hsound : s.Sound)
    (hstack : s.stack = frame :: stack)
    (hundisturbed : s.isUndisturbed .returned = true) :
    (({ s with stack } : Supervisor).goOn config frame).Kept := by
  have hself : frame ∈ s.stack := hstack ▸ List.mem_cons_self
  have hmoves : Moves s { s with stack } :=
    { SameAccounts.refl s with
      frames := fun f hf _ => hstack ▸ List.mem_cons_of_mem _ hf
      state := Or.inl rfl }
  have hpopped := h.moves_of_state hmoves rfl
  obtain ⟨-, hc, hbegan, -⟩ := hsound.returned hstack
  unfold Supervisor.isUndisturbed at hundisturbed
  rw [hstack] at hundisturbed
  unfold Supervisor.goOn
  cases frame with
  | done => exact hpopped
  | connecting g => exact hpopped.findPort
  | openReported g openId => exact hpopped.moves_of_state (Moves.wait (.refl _) id) rfl
  | pushed g openId => exact hpopped.moves_of_state (Moves.wait (.refl _) id) rfl
  | lossFlushed previous code next =>
    exact hpopped.moves_of_state (reportLoss_moves previous code next).1
      (reportLoss_moves previous code next).2
  | lossReported previous next left =>
    obtain ⟨rfl, rfl⟩ : s.state = previous ∧ s.generation = left := by simpa using hundisturbed
    exact hpopped.afterLoss next
  | listingReported left =>
    obtain ⟨hlisting, rfl⟩ : s.state = .listing ∧ s.generation = left := by simpa using hundisturbed
    exact hpopped.moves_of_none (Moves.giveUp (.refl _)) (by rw [hlisting]; rfl)
  | exhausted => exact hpopped.moves_of_state (Moves.report (.refl _) _ id) rfl
  | followFlushed previous left =>
    obtain ⟨rfl, rfl⟩ : s.state = previous ∧ s.generation = left := by simpa using hundisturbed
    exact hpopped.followNow
  | stopFlushed previous =>
    obtain ⟨port, openId, rfl⟩ := hbegan
    have hat : s.StopsAt openId := Or.inr ⟨port, hself⟩
    exact hpopped.stopNow_open (h.settledStop openId hat)
      (fun openId' hat' => h.stopsAt _ _ (hmoves.stopsAt hat') hat) fun openId' hid =>
        (h.stopState _ _ hat hid).symm
  | stopReported =>
    have hanswered := h.answered (Or.inr (Or.inl hself))
    exact { hpopped with answered := fun _ => hanswered }

theorem Kept.resume (h : s.Kept) (hsound : s.Sound) (hstack : s.stack = []) (htask : task ∈ s.tasks)
    (hundisturbed : s.isUndisturbed (.resume task answer) = true)
    (hboth : takesBothStreams (.resume task answer) = true)
    (hresume : (s.resumed task).resume config task answer = some s') : s'.Kept := by
  obtain ⟨hsound', hc⟩ := hsound.resumed htask
  have hresumed : (∀ openId, task ≠ .stopDraining openId) → (s.resumed task).Kept := h.resumed
  unfold Supervisor.resume at hresume
  split at hresume
  · obtain ⟨-, hresume⟩ := Option.ite_none_right_eq_some.mp hresume
    obtain rfl := Option.some.inj hresume
    split
    · exact hresumed nofun
    · exact (hresumed nofun).moves_of_state (Moves.listPorts (.refl _) _) rfl
  · exact Option.some.inj hresume ▸ (hresumed nofun).listed hc _
  · exact Option.some.inj hresume ▸ (hresumed nofun).listingFailed _
  · exact Option.some.inj hresume ▸ (hresumed nofun).listingFailed _
  · exact Option.some.inj hresume ▸ (hresumed nofun).openPort hsound'.toBase hc hstack
      (of_decide_eq_true hundisturbed) _
  · exact Option.some.inj hresume ▸ (hresumed nofun).openPortThrew hsound'.toBase hc hstack
      (of_decide_eq_true hundisturbed) _ _
  · obtain ⟨hopened, hresume⟩ := Option.ite_none_right_eq_some.mp hresume
    exact Option.some.inj hresume ▸ (hresumed nofun).openSucceeded _ hopened
  · obtain ⟨-, hresume⟩ := Option.ite_none_right_eq_some.mp hresume
    exact Option.some.inj hresume ▸ (hresumed nofun).connectThrew _
  · exact Option.some.inj hresume ▸ (hresumed nofun).connectThrew _
  · exact Option.some.inj hresume ▸ (hresumed nofun).startReading hc (h.settledTask _ _ _ htask)
      (of_decide_eq_true hundisturbed) _
  · exact Option.some.inj hresume ▸ (hresumed nofun).connectThrew _
  · exact absurd hboth Bool.false_ne_true
  · exact Option.some.inj hresume ▸ (hresumed nofun).readChunk _
  · exact Option.some.inj hresume ▸ (hresumed nofun).readEnded _
  · exact Option.some.inj hresume ▸ (hresumed nofun).readEnded _
  · exact Option.some.inj hresume ▸
      h.stopDrained (hsound.stopped (h.stopTasks _ htask trivial)) htask
  · obtain ⟨hclosed, hresume⟩ := Option.ite_none_right_eq_some.mp hresume
    exact Option.some.inj hresume ▸ (hresumed nofun).waitAnswered (h.stopTasks _ htask trivial)
      (h.tornDown htask hclosed)
  · exact Option.some.inj hresume ▸ (hresumed nofun).stopEnd (h.answered (Or.inl htask))
  · exact nomatch hresume

theorem Kept.react (h : s.Kept) (hsound : s.Sound) (hstack : s.stack = [])
    (hundisturbed : s.isUndisturbed event = true)
    (hintime : isInTime event = true) (hrefuses : s.refusesLockedOnly event = true)
    (hboth : takesBothStreams event = true)
    (hreact : s.react config event = some s') : s'.Kept := by
  unfold Supervisor.react at hreact
  split at hreact
  · obtain ⟨htask, hresume⟩ := Option.ite_none_right_eq_some.mp hreact
    exact h.resume hsound hstack htask hundisturbed hboth hresume
  · obtain ⟨-, hfired⟩ := Option.ite_none_right_eq_some.mp hreact
    exact Option.some.inj hfired ▸ h.timerFired _
  · obtain ⟨-, hflushed⟩ := Option.ite_none_right_eq_some.mp hreact
    refine Option.some.inj hflushed ▸ h.moves_of_state (Moves.callback ?_ id) rfl
    exact .note ⟨rfl, rfl⟩ ⟨rfl, rfl⟩ rfl ⟨rfl, rfl⟩ rfl rfl rfl (Or.inl rfl)
  · exact Option.some.inj hreact ▸ h.writeFailed
  · exact Option.some.inj hreact ▸ h.handleDeviceConnected
  · exact Option.some.inj hreact ▸ h.handleDeviceDisconnected _
  · rename_i openId isOpen
    obtain ⟨hpending, hsettled⟩ := Option.ite_none_right_eq_some.mp hreact
    refine Option.some.inj hsettled ▸ h.setPhase openId _ (by cases isOpen <;> nofun)
      fun call hcall hid _ => ?_
    rw [Option.some.inj ((h.phase?_eq hcall).symm.trans (hid ▸ hpending))]
    rfl
  · rename_i close how
    obtain ⟨closing, hlookup, hended⟩ := Option.bind_eq_some_iff.mp hreact
    refine h.closeStepEnded (KeyedList.mem_of_lookup hlookup) (of_decide_eq_true hintime) ?_ hended
    rintro rfl hclosing hopened
    change (KeyedList.lookup Closing.id close s.closes).all _ = true at hrefuses
    rw [hlookup] at hrefuses
    exact of_decide_eq_true hrefuses hclosing hopened
  · split at hreact
    · rename_i closes hteardown
      obtain ⟨hclosed, hforgotten⟩ := Option.ite_none_right_eq_some.mp hreact
      refine Option.some.inj hforgotten ▸ { h with teardown := fun close hclose => ?_ }
      have hmem : close.id ∈ closes := by
        have hmem := h.teardown close hclose
        rwa [hteardown] at hmem
      exact absurd hmem (of_decide_eq_true (List.all_eq_true.mp hclosed close hclose))
    · exact nomatch hreact
  · exact Option.some.inj hreact ▸
      h.moves_of_state (.note ⟨rfl, rfl⟩ ⟨rfl, rfl⟩ rfl ⟨rfl, rfl⟩ rfl rfl rfl (Or.inl rfl)) rfl
  · exact nomatch hreact
  · exact nomatch hreact

theorem Kept.step (h : s.Kept) (hsound : s.Sound) (hundisturbed : s.isUndisturbed event = true)
    (hintime : isInTime event = true) (hrefuses : s.refusesLockedOnly event = true)
    (hboth : takesBothStreams event = true)
    (hstep : s.step config event = some s') : s'.Kept := by
  unfold Supervisor.step at hstep
  split at hstep
  · exact Option.some.inj hstep ▸ h.perform _
  · split at hstep
    · exact nomatch hstep
    · rename_i frame stack hstack
      exact Option.some.inj hstep ▸ h.goOn hsound hstack hundisturbed
  · obtain ⟨hstack, hreact⟩ := Option.ite_none_right_eq_some.mp hstep
    exact h.react hsound hstack hundisturbed hintime hrefuses hboth hreact

/-! ### every run -/

theorem sound_of_run {es : List SupervisorEvent}
    (hundisturbed : (supervisorRuns config).Always (fun s e => s.isUndisturbed e = true) es)
    (hrun : (supervisorRuns config).run es = some s) : s.Sound :=
  TransitionSystem.run_invariant init_sound (fun _ _ _ h hundisturbed hstep =>
    h.step hundisturbed hstep) hundisturbed hrun

theorem kept_of_run {es : List SupervisorEvent}
    (hundisturbed : (supervisorRuns config).Always (fun s e => s.isUndisturbed e = true) es)
    (hintime : (supervisorRuns config).Always (fun _ e => isInTime e = true) es)
    (hrefuses : (supervisorRuns config).Always (fun s e => s.refusesLockedOnly e = true) es)
    (hboth : (supervisorRuns config).Always (fun _ e => takesBothStreams e = true) es)
    (hrun : (supervisorRuns config).run es = some s) :
    s.Sound ∧ s.Kept :=
  TransitionSystem.run_invariant (P := fun s => s.Sound ∧ s.Kept) ⟨init_sound, init_kept⟩
    (fun _ _ _ h hcond hstep =>
      ⟨h.1.step hcond.1.1 hstep, h.2.step h.1 hcond.1.1 hcond.1.2 hcond.2.1 hcond.2.2 hstep⟩)
    ((hundisturbed.and hintime).and (hrefuses.and hboth)) hrun

/-- A port opens whose writer somebody holds, its attempt is given up, and `stop()` follows. -/
def stopOfHalfTakenPort : List SupervisorEvent :=
  [.call (.start false), .returned, .resume (.awaitListing 1) (.found (some 5)),
    .resume (.foundPort 1 5) .done,
    .openSettled 0 true, .resume (.awaitOpen 1 5 0) .opened,
    .resume (.openedPort 1 5 0) (.writerThrew .OPEN_FAILED), .returned,
    .returned, .closeStep 0 .settled, .closeStep 0 .rejected, .call .stop,
    .resume (.stopTeardown [0]) .done,
    .resume .stopAnswered .done, .returned]

/-- No close lets go of a reader that no connection has: `close()` refuses, and the port outlasts
`stop()`. -/
theorem leaks_halfTakenPort :
    ∃ s, (supervisorRuns ⟨true, none, 1000, 0⟩).run stopOfHalfTakenPort = some s ∧
      (supervisorRuns ⟨true, none, 1000, 0⟩).Always
      (fun s e => s.isUndisturbed e = true) stopOfHalfTakenPort ∧
      (supervisorRuns ⟨true, none, 1000, 0⟩).Always
      (fun _ e => isInTime e = true) stopOfHalfTakenPort ∧
      (supervisorRuns ⟨true, none, 1000, 0⟩).Always
      (fun s e => s.refusesLockedOnly e = true) stopOfHalfTakenPort ∧
      s.stopsResolved = 1 ∧ s.opens = [⟨0, 5, .opened, false⟩] := by
  have hrun := (Option.some_get
    (show ((supervisorRuns ⟨true, none, 1000, 0⟩).run stopOfHalfTakenPort).isSome
    = true by decide)).symm
  exact ⟨_, hrun, TransitionSystem.always_of_alwaysFrom isUndisturbed (by decide),
    TransitionSystem.always_of_alwaysFrom (fun _ e => isInTime e) (by decide),
    TransitionSystem.always_of_alwaysFrom refusesLockedOnly (by decide), by decide, by decide⟩

end Supervisor

end SerialBroker
