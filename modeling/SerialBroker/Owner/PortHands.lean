import SerialBroker.Owner.PortSupervisorStopped

/-!
# Every port in one pair of hands

A port that is opened, or being opened, is the state's, or that of a `stop()` that waits for its
writes, or a close sequence's. Whoever leaves the state hands the port on first, and takes a later
generation before it does, so the teardown an attempt waits for has every close there is for as long
as the attempt is current. The record beside the supervisor notes what passes from hand to hand, and
whose bytes are buffered and delivered; no step reads it.
-/

namespace SerialBroker

/-- The call of `open()` whose port is open. -/
def ConnectionState.open? : ConnectionState → Option OpenId
  | .open _ openId => some openId
  | _ => none

/-- What a run shows of its connections. -/
structure ConnectionRecord where
  /-- The calls of `open()` that returned a promise. -/
  begun : List OpenId
  /-- What was handed to a close sequence. -/
  handed : List OpenId
  /-- The newest attempt, and the one that called `open()` last. -/
  attempt : Generation
  opener : Generation
  /-- The calls of `open()` made before every earlier port was handed to a close sequence, and every
  close sequence had ended. -/
  overlapping : List OpenId
  /-- The connections whose bytes the receive buffer holds. -/
  buffered : List OpenId
  /-- The connections whose bytes were delivered when they were not the one open. -/
  late : List OpenId
  deriving DecidableEq

namespace SupervisorEvent

/-- The connection a chunk is read on. -/
def chunk : SupervisorEvent → List OpenId
  | .resume (.reading _ openId) (.chunk _) => [openId]
  | _ => []

/-- The attempt that calls `open()`. -/
def opener? : SupervisorEvent → Option Generation
  | .resume (.foundPort generation _) _ => some generation
  | _ => none

end SupervisorEvent

namespace ConnectionRecord

def init : ConnectionRecord := ⟨[], [], 0, 0, [], [], []⟩

/-- What was handed to a close sequence, with the closes from `base` on that are in progress. -/
def handedSince (c : ConnectionRecord) (base : CloseId) (s : Supervisor) : List OpenId :=
  c.handed ++ (s.closes.filter fun close => base ≤ close.id).map Closing.openId

/-- What a step adds to the record. An attempt begins with a listing; bytes are delivered where a
callback leaves the buffer empty. -/
def observe (s : Supervisor) (event : SupervisorEvent) (s' : Supervisor) (c : ConnectionRecord) :
    ConnectionRecord where
  begun := c.begun ++ ((s'.opens.drop s.opens.length).filter fun call =>
    call.phase = .pending).map OpenCall.id
  handed := c.handedSince s.nextClose s'
  attempt := if s'.state = .listing then s'.generation else c.attempt
  opener := event.opener?.getD c.opener
  overlapping :=
    if s.opens.length < s'.opens.length ∧
        ¬ (s.closes = [] ∧ ∀ openId ∈ c.begun, openId ∈ c.handed) then
      c.overlapping ++ [s.opens.length]
    else c.overlapping
  buffered :=
    if s'.buffered = 0 then [] else if s.buffered < s'.buffered then c.buffered ++ event.chunk
      else c.buffered
  late :=
    if s.stack.length < s'.stack.length ∧ s'.buffered = 0 then
      c.late ++ (c.buffered ++ event.chunk).filter fun openId => s.state.open? ≠ some openId
    else c.late

end ConnectionRecord

def connectionRuns (config : ConnectionConfig) :
    TransitionSystem (Supervisor × ConnectionRecord) SupervisorEvent :=
  (supervisorRuns config).observed .init ConnectionRecord.observe

namespace Supervisor

/-- Who else than a close sequence has the port: the state, or the calls of `stop()` that wait for
its writes. -/
def holders (s : Supervisor) (openId : OpenId) : ℕ :=
  (if s.state.openId? = some openId then 1 else 0) + s.tasks.count (.stopDraining openId)

/-- The condition: where a method goes on without looking, the supervisor is as it left it; so it is
for a `stop()` that has delivered what the buffer held. -/
def keepsConnection (s : Supervisor) (event : SupervisorEvent) : Bool :=
  s.isUndisturbed event && match event, s.stack with
    | .returned, .stopFlushed previous :: _ => decide (s.state = previous)
    | _, _ => true

end Supervisor

/-! ### who has a port -/

/-- What an attempt that looks for a port has to wait for. -/
def Task.Cleared (closes : List Closing) : Task → Prop
  | .awaitTeardown _ awaited => ∀ close ∈ closes, close.id ∈ awaited
  | .awaitListing _ | .foundPort .. => closes = []
  | _ => True

namespace Supervisor

variable {config : ConnectionConfig} {s s' s'' s₀ : Supervisor} {task : Task} {frame : Frame}
  {generation : Generation}
  {answer : Answer} {event : SupervisorEvent} {openId : OpenId} {c c' : ConnectionRecord}

/-- The teardown has every close there is. -/
def Covered (s : Supervisor) : Prop := ∀ close ∈ s.closes, close.id ∈ s.teardown.getD []

/-- **Every port in one pair of hands**, in a step from `s₀`, whose record is `c`. -/
structure Apart (s₀ : Supervisor) (c : ConnectionRecord) (s : Supervisor) : Prop where
  length : s.opens.length = s₀.opens.length
  once : ∀ openId, s.holders openId + (c.handedSince s₀.nextClose s).count openId = if openId ∈
    c.begun then 1 else 0
  begun : ∀ openId ∈ c.begun, openId < s₀.opens.length
  newest : ∀ openId, s.state.openId? = some openId →
    openId + 1 = s₀.opens.length ∧ c.opener = c.attempt
  known : ∀ call ∈ s.opens, call.phase = .failed ∨ call.id ∈ c.begun
  closeIds : ∀ close ∈ s.closes, close.id < s.nextClose
  base : s₀.nextClose ≤ s.nextClose
  covered : s.Covered
  draining : ∀ openId, .stopDraining openId ∈ s.tasks → s.hasStopped = true
  cleared : ∀ task ∈ s.tasks, task.generation? = some s.generation → s.state = .listing →
    task.Cleared s.closes
  buffered : s.buffered = s₀.buffered ∨ s.buffered = 0

theorem init_apart : init.Apart .init init where
  length := rfl
  once := by
    simp [init, holders, ConnectionState.openId?, ConnectionRecord.handedSince,
      ConnectionRecord.init]
  begun _ h := absurd h List.not_mem_nil
  newest _ h := by cases h
  known _ h := absurd h List.not_mem_nil
  closeIds _ h := absurd h List.not_mem_nil
  base := Nat.le_refl _
  covered _ h := absurd h List.not_mem_nil
  draining _ h := absurd h List.not_mem_nil
  cleared _ h := absurd h List.not_mem_nil
  buffered := Or.inl rfl

/-! ### what passes no port on -/

/-- The ports and their closes are left alone, and what is taken up is no attempt that closes stand
in the way of. -/
structure Keeps (s s' : Supervisor) : Prop where
  opens : s'.opens = s.opens
  closes : s'.closes = s.closes
  nextClose : s'.nextClose = s.nextClose
  teardown : s'.teardown = s.teardown
  hasStopped : s.hasStopped = true → s'.hasStopped = true
  tasks : ∀ task ∈ s'.tasks, task ∈ s.tasks ∨ task.Cleared s.closes
  buffered : s'.buffered = s.buffered ∨ s'.buffered = 0

/-- No port passes from hand to hand either, but for what the state has. -/
structure Quiet (s s' : Supervisor) : Prop extends Keeps s s' where
  draining : ∀ openId, s'.tasks.count (.stopDraining openId) = s.tasks.count (.stopDraining openId)

theorem Quiet.note (hopens : s'.opens = s.opens)
    (hcloses : s'.closes = s.closes ∧ s'.nextClose = s.nextClose ∧ s'.teardown = s.teardown)
    (hstopped : s.hasStopped = true → s'.hasStopped = true) (htasks : s'.tasks = s.tasks)
    (hbuffered : s'.buffered = s.buffered ∨ s'.buffered = 0) :
    Quiet s s' where
  opens := hopens
  closes := hcloses.1
  nextClose := hcloses.2.1
  teardown := hcloses.2.2
  hasStopped := hstopped
  draining _ := by rw [htasks]
  tasks _ h := Or.inl (htasks ▸ h)
  buffered := hbuffered

theorem Quiet.refl (s : Supervisor) : Quiet s s := .note rfl ⟨rfl, rfl, rfl⟩ id rfl (Or.inl rfl)

theorem Quiet.trans (h : Quiet s s') (h' : Quiet s' s'') : Quiet s s'' where
  opens := h'.opens.trans h.opens
  closes := h'.closes.trans h.closes
  nextClose := h'.nextClose.trans h.nextClose
  teardown := h'.teardown.trans h.teardown
  hasStopped hstopped := h'.hasStopped (h.hasStopped hstopped)
  draining openId := (h'.draining openId).trans (h.draining openId)
  tasks task htask := by
    obtain htask | hcleared := h'.tasks task htask
    · exact h.tasks task htask
    · exact Or.inr (h.closes ▸ hcleared)
  buffered := by
    obtain hsame | hempty := h'.buffered
    · rw [hsame]
      exact h.buffered
    · exact Or.inr hempty

theorem Keeps.covered (h : Keeps s s') (hcovered : s.Covered) : s'.Covered := by
  intro close hclose
  rw [h.teardown]
  exact hcovered close (h.closes ▸ hclose)

theorem count_wait (htask : ∀ openId, task ≠ .stopDraining openId) (openId : OpenId) :
    (s.wait task).tasks.count (.stopDraining openId) = s.tasks.count (.stopDraining openId) := by
  simp only [wait, List.count_append, List.count_singleton, beq_iff_eq, if_neg (htask openId),
    Nat.add_zero]

theorem Quiet.wait (h : Quiet s s') (htask : ∀ openId, task ≠ .stopDraining openId)
    (hcleared : task.Cleared s.closes) :
    Quiet s (s'.wait task) := by
  refine h.trans { Quiet.refl s' with draining := count_wait htask, tasks := fun t ht => ?_ }
  obtain ht | ht := List.mem_append.mp ht
  · exact Or.inl ht
  · rw [List.mem_singleton.mp ht, h.closes]
    exact Or.inr hcleared

theorem Quiet.callback (h : Quiet s s') (frame : Frame) : Quiet s (s'.callback frame) :=
  h.trans (.note rfl ⟨rfl, rfl, rfl⟩ id rfl (Or.inl rfl))

theorem Quiet.setStatus (h : Quiet s s') (status : SerialBrokerStatus) :
    Quiet s (s'.setStatus status) := by
  unfold Supervisor.setStatus
  split
  · exact h
  · exact h.trans (.note rfl ⟨rfl, rfl, rfl⟩ id rfl (Or.inl rfl))

theorem Quiet.report (h : Quiet s s') (code : SerialBrokerErrorCode) (next : Frame) :
    Quiet s (s'.report code next) :=
  h.trans (.note rfl ⟨rfl, rfl, rfl⟩ id rfl (Or.inl rfl))

theorem Quiet.listPorts (h : Quiet s s') (hnone : s.closes = []) (generation : Generation) :
    Quiet s (s'.listPorts generation) :=
  Quiet.wait (h.trans (.note rfl ⟨rfl, rfl, rfl⟩ id rfl (Or.inl rfl)))
    (fun _ heq => by cases heq) hnone

theorem Quiet.findPort (h : Quiet s s') (hcovered : s.Covered) (generation : Generation) :
    Quiet s (s'.findPort generation) := by
  unfold Covered at hcovered
  unfold Supervisor.findPort
  split
  · next closes hteardown =>
    rw [h.teardown] at hteardown
    rw [hteardown] at hcovered
    exact h.wait (fun _ heq => by cases heq) hcovered
  · next hteardown =>
    rw [h.teardown] at hteardown
    rw [hteardown] at hcovered
    refine h.listPorts (List.eq_nil_iff_forall_not_mem.mpr fun close hclose => ?_) generation
    exact absurd (hcovered close hclose) List.not_mem_nil

theorem Quiet.connect (h : Quiet s s') (hcovered : s.Covered) : Quiet s s'.connect := by
  unfold Supervisor.connect
  split
  · exact h
  dsimp only
  split
  · refine Quiet.findPort ?_ hcovered _
    exact h.trans (.note rfl ⟨rfl, rfl, rfl⟩ id rfl (Or.inl rfl))
  · exact h.trans (.note rfl ⟨rfl, rfl, rfl⟩ id rfl (Or.inl rfl))

theorem Quiet.giveUp (h : Quiet s s') : Quiet s s'.giveUp := by
  refine Quiet.setStatus ?_ _
  exact h.trans (.note rfl ⟨rfl, rfl, rfl⟩ id rfl (Or.inl rfl))

theorem Quiet.recordFailedAttempt (h : Quiet s s') : Quiet s (s'.recordFailedAttempt config) := by
  unfold Supervisor.recordFailedAttempt
  split
  · exact h.giveUp
  dsimp only
  split
  · split
    · exact h.trans (.note rfl ⟨rfl, rfl, rfl⟩ id rfl (Or.inl rfl))
    · exact h.trans (.note rfl ⟨rfl, rfl, rfl⟩ id rfl (Or.inl rfl))
  · refine Quiet.setStatus ?_ _
    exact h.trans (.note rfl ⟨rfl, rfl, rfl⟩ id rfl (Or.inl rfl))

theorem Quiet.handleConnectionLoss (h : Quiet s s') (code : SerialBrokerErrorCode)
    (next : AfterLoss) :
    Quiet s (s'.handleConnectionLoss code next) := by
  unfold Supervisor.handleConnectionLoss
  split
  · exact h
  · exact h
  · split
    · exact h.trans (.note rfl ⟨rfl, rfl, rfl⟩ id rfl (Or.inr rfl))
    · exact h.trans (.note rfl ⟨rfl, rfl, rfl⟩ id rfl (Or.inl rfl))
  · exact h.trans (.note rfl ⟨rfl, rfl, rfl⟩ id rfl (Or.inl rfl))

/-! ### one port passes on -/

theorem holders_eq (hstate : s'.state.openId? = s.state.openId?)
    (hdraining : ∀ openId, s'.tasks.count (.stopDraining openId) = s.tasks.count
      (.stopDraining openId)) (openId : OpenId) :
    s'.holders openId = s.holders openId := by
  unfold holders
  rw [hstate, hdraining]

theorem handedSince_congr (hcloses : s'.closes = s.closes) (base : CloseId) :
    c.handedSince base s' = c.handedSince base s := by
  unfold ConnectionRecord.handedSince
  rw [hcloses]

/-- Where no port passes on, the attempts under way are those there were, or one that listed after
everything was closed. -/
theorem Apart.quiet (h : Apart s₀ c s) (hbase : s.Base) (hquiet : Quiet s s')
    (hstate : s'.state.openId? = s.state.openId?)
    (hlisting : s'.state = .listing → s.generation < s'.generation ∨ s'.generation = s.generation ∧
      s.state = .listing) :
    Apart s₀ c s' where
  length := by rw [hquiet.opens, h.length]
  once openId := by
    rw [holders_eq hstate hquiet.draining, handedSince_congr hquiet.closes]
    exact h.once openId
  begun := h.begun
  newest openId hid := h.newest openId (hstate ▸ hid)
  known := by rw [hquiet.opens]; exact h.known
  closeIds := by rw [hquiet.closes, hquiet.nextClose]; exact h.closeIds
  base := by rw [hquiet.nextClose]; exact h.base
  covered := hquiet.covered h.covered
  draining openId htask := by
    refine hquiet.hasStopped (h.draining openId ?_)
    rw [← List.count_pos_iff, ← hquiet.draining, List.count_pos_iff]
    exact htask
  cleared task htask hg hlists := by
    rw [hquiet.closes]
    obtain htask | hcleared := hquiet.tasks task htask
    · obtain hlater | ⟨hsame, hlisted⟩ := hlisting hlists
      · have hle := hbase.le _ (mem_chains.mpr (Or.inl ⟨task, htask, hg⟩))
        exact absurd hle (Nat.not_le_of_lt hlater)
      · exact h.cleared task htask (hg.trans (congrArg some hsame)) hlisted
    · exact hcleared
  buffered := by
    obtain hsame | hempty := hquiet.buffered
    · rw [hsame]
      exact h.buffered
    · exact Or.inr hempty

/-- A step that leaves the state and its generation alone. -/
theorem Apart.same (h : Apart s₀ c s) (hbase : s.Base) (hquiet : Quiet s s')
    (hstate : s'.state = s.state)
    (hgeneration : s.generation ≤ s'.generation) : Apart s₀ c s' := by
  refine h.quiet hbase hquiet (by rw [hstate]) fun hlists => ?_
  obtain hlater | hsame := Nat.lt_or_eq_of_le hgeneration
  · exact Or.inl hlater
  · exact Or.inr ⟨hsame.symm, hstate.symm.trans hlists⟩

theorem handedSince_trackTeardown (hbase : s₀.nextClose ≤ s.nextClose) (openId : OpenId)
    (step : CloseStep) :
    c.handedSince s₀.nextClose (s.trackTeardown openId step) = c.handedSince s₀.nextClose s ++
      [openId] := by
  simp [ConnectionRecord.handedSince, trackTeardown, hbase]

theorem Covered.trackTeardown (h : s.Covered) (openId : OpenId) (step : CloseStep) :
    (s.trackTeardown openId step).Covered := by
  intro close hclose
  obtain hclose | hclose := List.mem_append.mp hclose
  · exact List.mem_append_left _ (h close hclose)
  · rw [List.mem_singleton.mp hclose]
    exact List.mem_append_right _ (List.mem_singleton_self _)

/-- Its holder hands a port to a close sequence; no attempt that lists is current any more. -/
theorem Apart.trackTeardown (h : Apart s₀ c s) (step : CloseStep)
    (hkeeps : Keeps (s.trackTeardown openId step) s')
    (hnone : s'.state.openId? = none)
    (hholders : ∀ other, s'.holders other + (if other = openId then 1 else 0) = s.holders other)
    (hdraining : ∀ other, .stopDraining other ∈ s'.tasks → s'.hasStopped = true)
    (hlisting : ∀ task ∈ s.tasks, task.generation? = some s'.generation → s'.state ≠ .listing) :
    Apart s₀ c s' where
  length := by rw [hkeeps.opens]; exact h.length
  once other := by
    rw [handedSince_congr hkeeps.closes, handedSince_trackTeardown h.base, List.count_append,
      List.count_singleton, ← h.once other,
      ← hholders other]
    simp only [beq_iff_eq, eq_comm (a := openId)]
    omega
  begun := h.begun
  newest other hid := absurd (hnone.symm.trans hid) (by simp)
  known := by rw [hkeeps.opens]; exact h.known
  closeIds close hclose := by
    rw [hkeeps.closes] at hclose
    rw [hkeeps.nextClose]
    obtain hclose | hclose := List.mem_append.mp hclose
    · exact Nat.lt_succ_of_lt (h.closeIds close hclose)
    · rw [List.mem_singleton.mp hclose]
      exact Nat.lt_succ_self _
  base := by rw [hkeeps.nextClose]; exact Nat.le_succ_of_le h.base
  covered := hkeeps.covered (h.covered.trackTeardown openId step)
  draining := hdraining
  cleared task htask hg hlists := by
    rw [hkeeps.closes]
    obtain htask | hcleared := hkeeps.tasks task htask
    · exact absurd hlists (hlisting task htask hg)
    · exact hcleared
  buffered := by
    obtain hsame | hempty := hkeeps.buffered
    · rw [hsame]
      exact h.buffered
    · exact Or.inr hempty


theorem closeLost_covered (h : s.Covered) (previous : ConnectionState) (step : CloseStep) :
    (s.closeLost previous step).Covered := by
  unfold closeLost
  split
  · exact h.trackTeardown _ _
  · exact h.trackTeardown _ _
  · exact h

theorem closeLost_generation (previous : ConnectionState) (step : CloseStep) :
    (s.closeLost previous step).generation = s.generation := by
  unfold closeLost
  split
  · rfl
  · rfl
  · rfl

theorem closeLost_tasks (previous : ConnectionState) (step : CloseStep) :
    (s.closeLost previous step).tasks = s.tasks := by
  unfold closeLost
  split
  · rfl
  · rfl
  · rfl

theorem closeLost_hasStopped (previous : ConnectionState) (step : CloseStep) :
    (s.closeLost previous step).hasStopped = s.hasStopped := by
  unfold closeLost
  split
  · rfl
  · rfl
  · rfl

/-- The state is left for one without a port, and what it had is handed to a close sequence. -/
theorem Apart.leave (h : Apart s₀ c s) (hbase : s.Base) (step : CloseStep)
    (hquiet : Quiet (s.closeLost s.state step) s')
    (hnone : s'.state.openId? = none)
    (hlisting : s'.state = .listing → s.generation < s'.generation) : Apart s₀ c s' := by
  have htasks : ∀ other, s'.tasks.count (.stopDraining other) = s.tasks.count
      (.stopDraining other) := by
    intro other
    rw [hquiet.draining, closeLost_tasks]
  have hdraining : ∀ other, .stopDraining other ∈ s'.tasks → s'.hasStopped = true := by
    intro other hmem
    rw [← List.count_pos_iff, htasks, List.count_pos_iff] at hmem
    refine hquiet.hasStopped ?_
    rw [closeLost_hasStopped]
    exact h.draining other hmem
  have hstale : ∀ task ∈ s.tasks, task.generation? = some s'.generation → s'.state ≠ .listing := by
    intro task htask hg hlists
    have hle := hbase.le _ (mem_chains.mpr (Or.inl ⟨task, htask, hg⟩))
    exact absurd (hlisting hlists) (Nat.not_lt_of_le hle)
  have hholders : ∀ openId, s.state.openId? = some openId → ∀ other,
      s'.holders other + (if other = openId then 1 else 0) = s.holders other := by
    intro openId hid other
    unfold holders
    rw [htasks, hnone, hid]
    simp only [reduceCtorEq, if_false, Option.some.injEq, eq_comm (a := openId)]
    omega
  cases hstate : s.state with
  | opening port openId =>
    rw [hstate] at hquiet
    exact h.trackTeardown .waitingForOpen hquiet.toKeeps hnone
      (hholders openId (by rw [hstate]; rfl)) hdraining hstale
  | «open» port openId =>
    rw [hstate] at hquiet
    exact h.trackTeardown step hquiet.toKeeps hnone (hholders openId (by rw [hstate]; rfl))
      hdraining hstale
  | _ =>
    rw [hstate] at hquiet
    refine h.quiet hbase hquiet ?_ fun hlists => Or.inl (hlisting hlists)
    rw [hnone, hstate]
    rfl

theorem giveUp_state : s.giveUp.state = .failed := setStatus_state _

theorem Apart.afterLoss (h : Apart s₀ c s) (hbase : s.Base) (next : AfterLoss) :
    Apart s₀ c (s.afterLoss config s.state next) := by
  cases next with
  | giveUp =>
    rw [afterLoss_giveUp]
    refine h.leave hbase .cancelling (Quiet.giveUp (.refl _)) ?_ fun hlists => ?_
    · rw [giveUp_state]
      rfl
    · rw [giveUp_state] at hlists
      cases hlists
  | retry =>
    rw [afterLoss_retry]
    refine h.leave hbase .cancelling (Quiet.recordFailedAttempt (.refl _)) ?_ fun hlists => ?_
    · rw [recordFailedAttempt_state]
      split
      · rfl
      · rfl
    · rw [recordFailedAttempt_state] at hlists
      split at hlists
      · cases hlists
      · cases hlists

theorem Apart.followNow (h : Apart s₀ c s) (hbase : s.Base) : Apart s₀ c (s.followNow s.state) := by
  rw [followNow_eq]
  have hidle : ({ s.closeLost s.state .draining with
    backoff := .reset
    state := .idle } : Supervisor).state ≠ .stopped := by simp
  obtain ⟨-, hstate, -, hgeneration, -⟩ := connect_effect hidle
  refine h.leave hbase .draining (Quiet.connect ?_ (closeLost_covered h.covered _ _)) ?_ fun _ => ?_
  · exact .note rfl ⟨rfl, rfl, rfl⟩ id rfl (Or.inl rfl)
  · rw [hstate]
    rfl
  · rw [hgeneration]
    dsimp only
    rw [closeLost_generation]
    exact Nat.lt_succ_self _

/-- A new attempt where nothing is open. -/
theorem Apart.connect (h : Apart s₀ c s) (hbase : s.Base) (hquiet : Quiet s s')
    (hnone : s.state.openId? = none)
    (hstate : s'.state ≠ .stopped) (hgeneration : s.generation ≤ s'.generation) :
    Apart s₀ c s'.connect := by
  obtain ⟨-, hlists, -, hnext, -⟩ := connect_effect hstate
  refine h.quiet hbase (hquiet.connect h.covered) ?_ fun _ => Or.inl ?_
  · rw [hlists, hnone]
    rfl
  · rw [hnext]
    exact Nat.lt_succ_of_le hgeneration

/-! ### stopping -/

/-- The port of a connection that is stopped is its `stop()`'s. -/
theorem Apart.stopNow_open (h : Apart s₀ c s) {port : PortId}
    (hstate : s.state = .open port openId) :
    Apart s₀ c (s.stopNow (.open port openId)) where
  length := h.length
  once other := by
    rw [← h.once other]
    unfold holders
    rw [hstate]
    simp only [Supervisor.stopNow, Supervisor.wait, ConnectionState.openId?,
      ConnectionRecord.handedSince, List.count_append,
      List.count_singleton, beq_iff_eq, Task.stopDraining.injEq, Option.some.injEq,
      reduceCtorEq, if_false]
    omega
  begun := h.begun
  newest other hid := by cases hid
  known := h.known
  closeIds := h.closeIds
  base := h.base
  covered := h.covered
  draining _ _ := rfl
  cleared _ _ _ hlists := by cases hlists
  buffered := h.buffered

theorem Apart.stopNow (h : Apart s₀ c s) (hbase : s.Base) : Apart s₀ c (s.stopNow s.state) := by
  have hlisting : ConnectionState.stopped = .listing → s.generation < s.generation :=
    fun hlists => by cases hlists
  cases hstate : s.state with
  | «open» port openId => exact h.stopNow_open hstate
  | opening port openId =>
    refine h.leave hbase .cancelling
      (Quiet.wait ?_ (fun _ heq => by cases heq) trivial) rfl hlisting
    rw [hstate]
    exact .note rfl ⟨rfl, rfl, rfl⟩ (fun _ => rfl) rfl (Or.inl rfl)
  | _ =>
    refine h.leave hbase .cancelling
      (Quiet.wait ?_ (fun _ heq => by cases heq) trivial) rfl hlisting
    rw [hstate]
    exact .note rfl ⟨rfl, rfl, rfl⟩ (fun _ => rfl) rfl (Or.inl rfl)

theorem Apart.stop (h : Apart s₀ c s) (hsound : s.Sound) : Apart s₀ c s.stop := by
  unfold Supervisor.stop
  split
  · exact h
  have hnext : Apart s₀ c { s with generation := s.generation + 1 } :=
    h.same hsound.toBase (.note rfl ⟨rfl, rfl, rfl⟩ id rfl (Or.inl rfl)) rfl (Nat.le_succ _)
  have hstops := hnext.stopNow hsound.nextGeneration.toBase
  dsimp only at hstops ⊢
  split
  · next port openId hstate =>
    split
    · exact hnext.same hsound.nextGeneration.toBase (.note rfl ⟨rfl, rfl, rfl⟩ id rfl (Or.inr rfl))
        rfl (Nat.le_refl _)
    · rw [hstate] at hstops
      exact hstops
  · exact hstops

/-- The writes are drained, or not in time, and the port passes to a close sequence. -/
theorem Apart.stopDrained (h : Apart s₀ c s) (hsound : s.Sound)
    (htask : .stopDraining openId ∈ s.tasks) :
    Apart s₀ c ((s.resumed (.stopDraining openId)).stopDrained openId) := by
  have hstopped := h.draining openId htask
  have hstate := hsound.stopped hstopped
  have hnone : s.state.openId? = none := by
    rw [hstate]
    rfl
  have hcount : ∀ other, (s.tasks.erase (.stopDraining openId)).count (.stopDraining other) +
      (if other = openId then 1 else 0) =
      s.tasks.count (.stopDraining other) := by
    intro other
    by_cases heq : other = openId
    · subst heq
      rw [List.count_erase_self, if_pos rfl]
      exact Nat.sub_add_cancel (List.count_pos_iff.mpr htask)
    · rw [List.count_erase_of_ne (by simpa using heq), if_neg heq, Nat.add_zero]
  have hresumed : ∀ task ∈ ((s.resumed (.stopDraining openId)).stopDrained openId).tasks,
    task ∈ s.tasks ∨ task.Cleared
      (s.trackTeardown openId .cancelling).closes := by
    intro task hmem
    obtain hmem | hmem := List.mem_append.mp hmem
    · exact Or.inl (List.mem_of_mem_erase hmem)
    · rw [List.mem_singleton.mp hmem]
      exact Or.inr trivial
  refine h.trackTeardown .cancelling ⟨rfl, rfl, rfl, rfl, id, hresumed, Or.inl rfl⟩ ?_
      (fun other => ?_) (fun _ _ => hstopped)
    fun _ _ _ hlists => ?_
  · exact hnone
  · have herased := hcount other
    unfold holders Supervisor.stopDrained
    rw [count_wait (fun _ heq => by cases heq)]
    simp only [Supervisor.wait, Supervisor.trackTeardown, Supervisor.resumed, hnone,
      reduceCtorEq, if_false]
    omega
  · exact absurd (hstate.symm.trans hlists) (by simp)


/-! ### opening and closing -/

theorem handedSince_of_lt {base : CloseId} (h : ∀ close ∈ s.closes, close.id < base) :
    c.handedSince base s = c.handed := by
  have hnone : (s.closes.filter fun close => base ≤ close.id) = [] := by
    refine List.filter_eq_nil_iff.mpr fun close hclose => ?_
    exact Bool.not_eq_true _ ▸ decide_eq_false (Nat.not_le_of_lt (h close hclose))
  unfold ConnectionRecord.handedSince
  rw [hnone, List.map_nil, List.append_nil]

/-- The step ends, and the record has what passed from hand to hand. -/
theorem Apart.observed (h : Apart s₀ c s) (hbegun : c'.begun = c.begun)
    (hhanded : c'.handed = c.handedSince s₀.nextClose s)
    (hopener : ∀ openId, s.state.openId? = some openId →
      c'.opener = c.opener ∧ c'.attempt = c.attempt) : Apart s c' s where
  length := rfl
  once openId := by
    rw [handedSince_of_lt h.closeIds, hhanded, hbegun]
    exact h.once openId
  begun openId hmem := by
    rw [h.length]
    exact h.begun openId (hbegun ▸ hmem)
  newest openId hid := by
    obtain ⟨hnewest, hattempt⟩ := h.newest openId hid
    rw [h.length, (hopener openId hid).1, (hopener openId hid).2]
    exact ⟨hnewest, hattempt⟩
  known := by rw [hbegun]; exact h.known
  closeIds := h.closeIds
  base := Nat.le_refl _
  covered := h.covered
  draining := h.draining
  cleared := h.cleared
  buffered := Or.inl rfl

/-- A call of `open()` whose port is the state's. -/
theorem Apart.openPort (h : Apart s c s) (hlists : s.state = .listing) (generation : Generation)
    (port : PortId)
    (hbegun : c'.begun = c.begun ++ [s.opens.length]) (hhanded : c'.handed = c.handed)
    (hopener : c'.opener = c'.attempt) :
    Apart (s.openPort generation port) c' (s.openPort generation port) where
  length := rfl
  once openId := by
    have honce := h.once openId
    have hnew : s.opens.length ∉ c.begun := fun hmem => Nat.lt_irrefl _ (h.begun _ hmem)
    have hsame : c'.handedSince (s.openPort generation port).nextClose
        (s.openPort generation port) = c'.handed :=
      handedSince_of_lt h.closeIds
    rw [handedSince_of_lt h.closeIds] at honce
    rw [hsame, hhanded, hbegun]
    unfold holders at honce ⊢
    rw [hlists] at honce
    unfold Supervisor.openPort
    rw [count_wait (fun _ heq => by cases heq)]
    simp only [Supervisor.wait, ConnectionState.openId?, Option.some.injEq, List.mem_append,
      List.mem_singleton, reduceCtorEq, if_false,
      Nat.zero_add] at honce ⊢
    by_cases heq : s.opens.length = openId
    · subst heq
      rw [if_neg hnew] at honce
      simp only [if_true, or_true]
      omega
    · have heq' : ¬ openId = s.opens.length := fun heq' => heq heq'.symm
      simp only [heq, heq', if_false, or_false, Nat.zero_add]
      exact honce
  begun openId hmem := by
    rw [hbegun] at hmem
    simp only [Supervisor.openPort, Supervisor.wait, List.length_append, List.length_singleton]
    obtain hmem | hmem := List.mem_append.mp hmem
    · exact Nat.lt_succ_of_lt (h.begun openId hmem)
    · rw [List.mem_singleton.mp hmem]
      exact Nat.lt_succ_self _
  newest openId hid := by
    obtain rfl : s.opens.length = openId := Option.some.inj hid
    simp only [Supervisor.openPort, Supervisor.wait, List.length_append, List.length_singleton]
    exact ⟨trivial, hopener⟩
  known call hcall := by
    rw [hbegun]
    obtain hcall | hcall := List.mem_append.mp hcall
    · exact (h.known call hcall).imp_right (List.mem_append_left _)
    · rw [List.mem_singleton.mp hcall]
      exact Or.inr (List.mem_append_right _ (List.mem_singleton_self _))
  closeIds := h.closeIds
  base := Nat.le_refl _
  covered := h.covered
  draining openId htask := by
    obtain htask | htask := List.mem_append.mp htask
    · exact h.draining openId htask
    · cases List.mem_singleton.mp htask
  cleared _ _ _ hlists := by cases hlists
  buffered := Or.inl rfl

/-- What became of a call of `open()` that returned a promise. -/
theorem Apart.setPhase (h : Apart s₀ c s) {old : OpenPhase} (hphase : s.phase? openId = some old)
    (hold : old ≠ .failed) (phase : OpenPhase) :
    Apart s₀ c (s.setPhase openId phase) := by
  have hbegun : openId ∈ c.begun := by
    obtain ⟨call, hcall, rfl⟩ := Option.map_eq_some_iff.mp hphase
    have hknown := (h.known call (KeyedList.mem_of_lookup hcall)).resolve_left hold
    rw [← KeyedList.key_of_lookup hcall]
    exact hknown
  refine { h with length := KeyedList.length_adjust.trans h.length, known := fun call hcall => ?_ }
  obtain ⟨call, hmem, rfl⟩ := KeyedList.mem_adjust.mp hcall
  split
  · next hid => exact Or.inr (hid ▸ hbegun)
  · exact h.known call hmem

/-- Closes go on, or end. -/
theorem Apart.progress (h : Apart s₀ c s) (hbase : s₀.nextClose = s.nextClose)
    (closes : List Closing)
    (hids : ∀ close ∈ closes, ∃ old ∈ s.closes, close.id = old.id) : Apart s₀ c
      { s with closes } := by
  have hlt : ∀ close ∈ closes, close.id < s.nextClose := by
    intro close hclose
    obtain ⟨old, hold, hid⟩ := hids close hclose
    exact hid ▸ h.closeIds old hold
  refine { h with
    once := fun openId => ?_
    closeIds := hlt
    covered := fun close hclose => ?_
    cleared := fun task htask hg hlists => ?_ }
  · have hafter : c.handedSince s₀.nextClose { s with closes } = c.handed :=
      handedSince_of_lt (by rw [hbase]; exact hlt)
    have hbefore : c.handedSince s₀.nextClose s = c.handed :=
      handedSince_of_lt (by rw [hbase]; exact h.closeIds)
    rw [← h.once openId, hafter, hbefore]
    rfl
  · obtain ⟨old, hold, hid⟩ := hids close hclose
    exact hid ▸ h.covered old hold
  · have hcleared := h.cleared task htask hg hlists
    have hnone : s.closes = [] → closes = [] :=
        fun hnone => List.eq_nil_iff_forall_not_mem.mpr fun close hclose => by
      obtain ⟨old, hold, _⟩ := hids close hclose
      rw [hnone] at hold
      exact absurd hold List.not_mem_nil
    cases task with
    | awaitTeardown g awaited =>
      intro close hclose
      obtain ⟨old, hold, hid⟩ := hids close hclose
      exact hid ▸ hcleared old hold
    | awaitListing g => exact hnone hcleared
    | foundPort g port => exact hnone hcleared
    | _ => trivial

theorem Apart.closeStepEnded (h : Apart s c s) {close : Closing} {how : StepEnd}
    (hended : s.closeStepEnded close how = some s') : Apart s c s' := by
  have hstep : ∀ {t : Supervisor}, Apart s c t → t.nextClose = s.nextClose →
      ∀ step, Apart s c (t.enterStep close step) :=
    fun ht hnext step => ht.progress hnext.symm _ fun other hother => by
      obtain ⟨old, hold, rfl⟩ := KeyedList.mem_adjust.mp hother
      refine ⟨old, hold, ?_⟩
      split
      · rfl
      · rfl
  have hrelease : ∀ lock, Apart s c (s.releaseLock lock) := fun lock => { h with }
  have hfinish : ∀ {t : Supervisor}, Apart s c t → t.nextClose = s.nextClose →
      Apart s c (t.finishClose close) := fun ht hnext =>
    ht.progress hnext.symm _ fun other hother => ⟨other, (KeyedList.mem_erase.mp hother).1, rfl⟩
  unfold Supervisor.closeStepEnded at hended
  split at hended
  · exact Option.some.inj hended ▸ hstep h rfl _
  · exact Option.some.inj hended ▸ hstep (hrelease _) rfl _
  · exact Option.some.inj hended ▸ hstep (hrelease _) rfl _
  · split at hended
    · exact Option.some.inj hended ▸ hstep h rfl _
    · exact Option.some.inj hended ▸ hstep h rfl _
    · exact Option.some.inj hended ▸ hstep h rfl _
    · exact Option.some.inj hended ▸ hfinish h rfl
    · cases hended
  · split at hended
    · next hclosed =>
      exact Option.some.inj (Option.ite_none_left_eq_some.mp hended).2 ▸
        hfinish (h.setPhase hclosed.2 (by simp) .closed) rfl
    · exact Option.some.inj hended ▸ hfinish h rfl

/-! ### every call and every step -/

theorem findPort_effect (generation : Generation) :
    (s.findPort generation).state = s.state ∧ (s.findPort generation).generation = s.generation ∧
      (s.findPort generation).buffered = s.buffered ∧ (s.findPort generation).stack = s.stack := by
  unfold Supervisor.findPort
  split
  · exact ⟨rfl, rfl, rfl, rfl⟩
  · exact ⟨rfl, rfl, rfl, rfl⟩

theorem handleConnectionLoss_generation (code : SerialBrokerErrorCode) (next : AfterLoss) :
    s.generation ≤ (s.handleConnectionLoss code next).generation := by
  unfold Supervisor.handleConnectionLoss
  split
  · exact Nat.le_refl _
  · exact Nat.le_refl _
  · split
    · exact Nat.le_refl _
    · exact Nat.le_succ _
  · exact Nat.le_succ _

theorem Apart.handleConnectionLoss (h : Apart s₀ c s) (hbase : s.Base)
    (code : SerialBrokerErrorCode) (next : AfterLoss) :
    Apart s₀ c (s.handleConnectionLoss code next) :=
  h.same hbase (Quiet.handleConnectionLoss (.refl s) code next)
      (handleConnectionLoss_state code next)
    (handleConnectionLoss_generation code next)

theorem connectThrew_effect (code : SerialBrokerErrorCode) :
    Quiet s (s.connectThrew generation code) ∧
      (s.connectThrew generation code).state = s.state := by
  unfold Supervisor.connectThrew
  split
  · exact ⟨.refl s, rfl⟩
  · exact ⟨Quiet.handleConnectionLoss (.refl s) _ _, handleConnectionLoss_state _ _⟩

theorem Apart.connectThrew (h : Apart s₀ c s) (hbase : s.Base) (code : SerialBrokerErrorCode) :
    Apart s₀ c (s.connectThrew generation code) := by
  unfold Supervisor.connectThrew
  split
  · exact h
  · exact h.handleConnectionLoss hbase _ _

/-- A state without a port is left for another one that does not list. -/
theorem Apart.rest (h : Apart s₀ c s) (hbase : s.Base) (hquiet : Quiet s s')
    (hnone : s.state.openId? = none)
    (hnone' : s'.state.openId? = none) (hlisting : s'.state ≠ .listing) : Apart s₀ c s' :=
  h.quiet hbase hquiet (hnone'.trans hnone.symm) fun hlists => absurd hlists hlisting

theorem Apart.start (h : Apart s₀ c s) (hbase : s.Base) (isFailed : Bool) :
    Apart s₀ c (s.start isFailed) := by
  unfold Supervisor.start
  split
  · exact h
  next hidle =>
  have hidle : s.state = .idle := not_not.mp hidle
  have hnone : s.state.openId? = none := by
    rw [hidle]
    rfl
  split
  · refine h.rest hbase (Quiet.setStatus ?_ _) hnone ?_ ?_
    · exact .note rfl ⟨rfl, rfl, rfl⟩ id rfl (Or.inl rfl)
    · rw [setStatus_state]
      rfl
    · rw [setStatus_state]
      simp
  · exact h.connect hbase (.refl s) hnone (by rw [hidle]; simp) (Nat.le_refl _)

/-- A new attempt after everything that counted the earlier ones was reset. -/
theorem Apart.connectAgain (h : Apart s₀ c s) (hbase : s.Base) (hnone : s.state.openId? = none)
    (timers : List TimerId) :
    Apart s₀ c ({ s with timers, backoff := .reset, state := .idle } : Supervisor).connect := by
  refine h.connect hbase (.note rfl ⟨rfl, rfl, rfl⟩ id rfl (Or.inl rfl)) hnone ?_ (Nat.le_refl _)
  simp

theorem Apart.retry (h : Apart s₀ c s) (hbase : s.Base) : Apart s₀ c s.retry := by
  unfold Supervisor.retry
  split
  · next hstate =>
    refine h.connectAgain hbase ?_ s.timers
    obtain hstate | hstate := hstate
    · rw [hstate]
      rfl
    · rw [hstate]
      rfl
  · exact h

theorem Apart.useGrantedPort (h : Apart s₀ c s) (hbase : s.Base) : Apart s₀ c s.useGrantedPort := by
  unfold Supervisor.useGrantedPort
  split
  · exact h
  · exact h
  · exact h
  · next timer hstate =>
    refine h.connectAgain hbase ?_ _
    rw [hstate]
    rfl
  · next hstopped hopen hopening hreconnecting =>
    refine h.connectAgain hbase ?_ s.timers
    cases hstate : s.state with
    | opening port openId => exact absurd hstate (hopening port openId)
    | «open» port openId => exact absurd hstate (hopen port openId)
    | _ => rfl

theorem Apart.followDevice (h : Apart s₀ c s) (hsound : s.Sound) (matchesDevice : Bool) :
    Apart s₀ c (s.followDevice matchesDevice) := by
  have hnext : Apart s₀ c { s with
      generation := s.generation + 1
      foundPort := none
      foundPortDetached := false } :=
    h.same hsound.toBase (.note rfl ⟨rfl, rfl, rfl⟩ id rfl (Or.inl rfl)) rfl (Nat.le_succ _)
  have hnoted : ({ s with
      generation := s.generation + 1
      foundPort := none
      foundPortDetached := false } : Supervisor).Sound :=
    hsound.nextGeneration.note ⟨rfl, rfl, rfl, rfl⟩ rfl rfl rfl
  have hbase := hnoted.toBase
  have hfollows := hnext.followNow hbase
  dsimp only at hfollows
  unfold Supervisor.followDevice
  split
  · exact h
  · next hstate =>
    split
    · exact h
    · rw [hstate] at hfollows
      exact hfollows
  · next hstate =>
    split
    · exact h
    dsimp only
    split
    · exact hnext.same hbase (.note rfl ⟨rfl, rfl, rfl⟩ id rfl (Or.inr rfl)) rfl (Nat.le_refl _)
    · rw [hstate] at hfollows
      exact hfollows
  · next timer hstate =>
    refine hnext.connectAgain hbase ?_ _
    dsimp only
    rw [hstate]
    rfl
  · exact hfollows

theorem Apart.perform (h : Apart s₀ c s) (hsound : s.Sound) (call : SupervisorCall) :
    Apart s₀ c (s.perform call) := by
  cases call with
  | start isFailed => exact h.start hsound.toBase isFailed
  | stop => exact h.stop hsound
  | retry => exact h.retry hsound.toBase
  | useGrantedPort => exact h.useGrantedPort hsound.toBase
  | followDevice matchesDevice => exact h.followDevice hsound matchesDevice

theorem Apart.goOn {stack : List Frame} (h : Apart s₀ c s) (hsound : s.Sound)
    (hstack : s.stack = frame :: stack)
    (hkeeps : s.keepsConnection .returned = true) : Apart s₀ c
      (({ s with stack } : Supervisor).goOn config frame) := by
  obtain ⟨hpopped, hc, hbegan, -⟩ := hsound.returned hstack
  have hpop : Apart s₀ c { s with stack } :=
    h.same hsound.toBase (.note rfl ⟨rfl, rfl, rfl⟩ id rfl (Or.inl rfl)) rfl (Nat.le_refl _)
  have hreads : ∀ g openId, Apart s₀ c (({ s with stack } : Supervisor).wait (.reading g openId)) :=
      fun g openId =>
    hpop.same hpopped.toBase (Quiet.wait (.refl _) (fun _ heq => by cases heq) trivial) rfl
      (Nat.le_refl _)
  unfold Supervisor.keepsConnection Supervisor.isUndisturbed at hkeeps
  rw [hstack] at hkeeps
  unfold Supervisor.goOn
  cases frame with
  | done => exact hpop
  | connecting g =>
    obtain ⟨hstate, hgeneration, -, -⟩ := findPort_effect (s := { s with stack }) g
    exact hpop.same hpopped.toBase (Quiet.findPort (.refl _) hpop.covered g) hstate
      (Nat.le_of_eq hgeneration.symm)
  | openReported g openId => exact hreads g openId
  | pushed g openId => exact hreads g openId
  | lossFlushed previous code next =>
    exact hpop.same hpopped.toBase (.note rfl ⟨rfl, rfl, rfl⟩ id rfl (Or.inl rfl)) rfl
      (Nat.le_succ _)
  | lossReported previous next left =>
    obtain ⟨rfl, rfl⟩ : s.state = previous ∧ s.generation = left := by simpa using hkeeps
    exact hpop.afterLoss hpopped.toBase next
  | listingReported left =>
    obtain ⟨hlisting, rfl⟩ : s.state = .listing ∧ s.generation = left := by simpa using hkeeps
    refine hpop.rest hpopped.toBase (Quiet.giveUp (.refl _)) ?_ ?_ ?_
    · dsimp only
      rw [hlisting]
      rfl
    · rw [giveUp_state]
      rfl
    · rw [giveUp_state]
      simp
  | exhausted => exact hpop.same hpopped.toBase (Quiet.report (.refl _) _ _) rfl (Nat.le_refl _)
  | followFlushed previous left =>
    obtain ⟨rfl, rfl⟩ : s.state = previous ∧ s.generation = left := by simpa using hkeeps
    exact hpop.followNow hpopped.toBase
  | stopFlushed previous =>
    obtain rfl : s.state = previous := by simpa using hkeeps
    exact hpop.stopNow hpopped.toBase
  | stopReported =>
    exact hpop.same hpopped.toBase (.note rfl ⟨rfl, rfl, rfl⟩ id rfl (Or.inl rfl)) rfl
      (Nat.le_refl _)


theorem Apart.resumed (h : Apart s₀ c s) (hbase : s.Base)
    (htask : ∀ openId, task ≠ .stopDraining openId) :
    Apart s₀ c (s.resumed task) := by
  refine h.same hbase { Quiet.refl s with
    draining := fun openId => ?_
    tasks := fun t ht => ?_ } rfl (Nat.le_refl _)
  · exact Or.inl (List.mem_of_mem_erase ht)
  · exact List.count_erase_of_ne (Ne.symm (htask openId))

/-- An attempt that lists lists after everything was closed. -/
theorem Apart.listed (h : Apart s₀ c s) (hbase : s.Base)
    (hc : s.Current (some generation) (· = .listing))
    (hclosed : s.isStale generation = false → s.closes = []) (found : Option PortId) :
    Apart s₀ c (s.listed config generation found) := by
  unfold Supervisor.listed
  split
  · exact h
  next hstale =>
  obtain ⟨-, -, -, hlisting⟩ := hc.of_not_stale hstale
  have hclosed := hclosed (Bool.eq_false_iff.mpr hstale)
  have hnone : s.state.openId? = none := by
    rw [hlisting]
    rfl
  split
  · exact h.same hbase (Quiet.wait (.refl s) (fun _ heq => by cases heq) hclosed) rfl
      (Nat.le_refl _)
  · split
    · exact h.same hbase (Quiet.listPorts (.refl s) hclosed _) rfl (Nat.le_refl _)
    · split
      · refine h.rest hbase (Quiet.recordFailedAttempt (.refl s)) hnone ?_ ?_
        · rw [recordFailedAttempt_state]
          split
          · rfl
          · rfl
        · rw [recordFailedAttempt_state]
          split
          · simp
          · simp
      · refine h.rest hbase (Quiet.setStatus ?_ _) hnone ?_ ?_
        · exact .note rfl ⟨rfl, rfl, rfl⟩ id rfl (Or.inl rfl)
        · rw [setStatus_state]
          rfl
        · rw [setStatus_state]
          simp

theorem Apart.listingFailed (h : Apart s₀ c s) (hbase : s.Base) (isTimeout : Bool) :
    Apart s₀ c (s.listingFailed generation isTimeout) := by
  unfold Supervisor.listingFailed
  split
  · exact h
  · split
    · exact h.handleConnectionLoss hbase _ _
    · exact h.same hbase (Quiet.report (.refl s) _ _) rfl (Nat.le_refl _)

theorem Apart.lockStreams (h : Apart s₀ c s) (locks : List StreamLock) :
    Apart s₀ c (s.lockStreams locks) := { h with }

theorem Apart.startReading (h : Apart s₀ c s) (hbase : s.Base) {port : PortId}
    (hc : s.Current (some generation) (· = .opening port openId))
    (hstale : s.isStale generation = false) (isMissing : Bool) :
    Apart s₀ c (s.startReading generation port openId isMissing) := by
  obtain ⟨-, -, -, hopening⟩ := hc.of_not_stale (Bool.eq_false_iff.mp hstale)
  unfold Supervisor.startReading
  split
  · exact h.handleConnectionLoss hbase _ _
  have hnote : Quiet s { s.lockStreams [.reader openId, .writer openId] with
      state := .open port openId, buffered := 0, backoff :=
        s.backoff.recordConnected s.monotonicNow } :=
    .note rfl ⟨rfl, rfl, rfl⟩ id rfl (Or.inr rfl)
  have hsame : (ConnectionState.open port openId).openId? = s.state.openId? := by
    rw [hopening]
    rfl
  have hopen : ConnectionState.open port openId = .listing →
      s.generation < s.generation ∨ s.generation = s.generation ∧ s.state = .listing :=
        fun heq => by cases heq
  dsimp only
  split
  · exact h.quiet hbase (hnote.wait (fun _ heq => by cases heq) trivial) hsame hopen
  · refine h.quiet hbase (Quiet.callback ?_ _) hsame hopen
    exact .note rfl ⟨rfl, rfl, rfl⟩ id rfl (Or.inr rfl)

theorem Apart.readEnded (h : Apart s₀ c s) (hbase : s.Base) (code : SerialBrokerErrorCode) :
    Apart s₀ c (s.readEnded generation code) := by
  unfold Supervisor.readEnded
  split
  · exact h
  · exact h.handleConnectionLoss hbase _ _

/-- How much the buffer holds is nobody's concern here. -/
theorem Apart.rebuffer (h : Apart s₀ c s) (buffered : ℕ) : Apart { s₀ with buffered } c
    { s with buffered } :=
  { h with buffered := Or.inl rfl }

theorem Apart.readChunk (h : Apart s₀ c s) (hbase : s.Base) (bytes : ℕ) :
    ∃ buffered, Apart { s₀ with buffered } c (s.readChunk config generation openId bytes) := by
  have hreads : Task.Cleared s.closes (.reading generation openId) := trivial
  unfold Supervisor.readChunk
  split
  · exact ⟨s.buffered, h.rebuffer s.buffered⟩
  split
  · refine ⟨s.buffered, (h.rebuffer s.buffered).same hbase
      (Quiet.wait (.refl s) (fun _ heq => by cases heq) hreads) rfl (Nat.le_refl _)⟩
  dsimp only
  split
  · refine ⟨0, (h.rebuffer 0).same ?_ (Quiet.callback (.refl _) _) rfl (Nat.le_refl _)⟩
    exact ⟨hbase.stopped, hbase.timers, hbase.opens, hbase.le, hbase.nodup, hbase.began,
      hbase.order, hbase.held⟩
  · refine ⟨s.buffered + bytes,
      (h.rebuffer _).same ?_ (Quiet.wait (.refl _) (fun _ heq => by cases heq) hreads) rfl
      (Nat.le_refl _)⟩
    exact ⟨hbase.stopped, hbase.timers, hbase.opens, hbase.le, hbase.nodup, hbase.began,
      hbase.order, hbase.held⟩

/-- What the functions of an attempt, and of `stop()`, go on with, but for those that open a port or
read a chunk. -/
theorem Apart.resume (h : Apart s c s) (hsound : s.Sound) (htask : task ∈ s.tasks)
    (hundisturbed : s.isUndisturbed (.resume task answer) = true)
    (hopener : (SupervisorEvent.resume task answer).opener? = none)
    (hchunk : (SupervisorEvent.resume task answer).chunk = [])
    (hresume : (s.resumed task).resume config task answer = some s') : Apart s c s' := by
  obtain ⟨hresumed, hc⟩ := hsound.resumed htask
  have hbase := hresumed.toBase
  have htaken : (∀ openId, task ≠ .stopDraining openId) → Apart s c (s.resumed task) :=
    h.resumed hsound.toBase
  unfold Supervisor.resume at hresume
  split at hresume
  · next g awaited =>
    have htaken := htaken fun _ heq => by cases heq
    obtain ⟨hclosed, hresume⟩ := Option.ite_none_right_eq_some.mp hresume
    obtain rfl := Option.some.inj hresume
    split
    · exact htaken
    next hstale =>
    obtain ⟨hg, -, -, hlisting⟩ := hc.of_not_stale hstale
    have hcleared := h.cleared _ htask (congrArg some hg) hlisting
    have hnone : (s.resumed (.awaitTeardown g awaited)).closes = [] :=
        List.eq_nil_iff_forall_not_mem.mpr fun close hclose =>
      of_decide_eq_true (List.all_eq_true.mp hclosed close hclose) (hcleared close hclose)
    exact htaken.same hbase (Quiet.listPorts (.refl _) hnone _) rfl (Nat.le_refl _)
  · next g found =>
    refine Option.some.inj hresume ▸ (htaken fun _ heq => by cases heq).listed hbase hc
      (fun hstale => ?_) found
    obtain ⟨hg, -, -, hlisting⟩ := hc.of_not_stale (Bool.eq_false_iff.mp hstale)
    exact h.cleared _ htask (congrArg some hg) hlisting
  · exact Option.some.inj hresume ▸ (htaken fun _ heq => by cases heq).listingFailed hbase _
  · exact Option.some.inj hresume ▸ (htaken fun _ heq => by cases heq).listingFailed hbase _
  · cases hopener
  · cases hopener
  · obtain ⟨-, hresume⟩ := Option.ite_none_right_eq_some.mp hresume
    obtain rfl := Option.some.inj hresume
    have htaken := htaken fun _ heq => by cases heq
    unfold Supervisor.openSucceeded
    split
    · exact htaken
    · exact htaken.same hbase (Quiet.wait (.refl _) (fun _ heq => by cases heq) trivial) rfl
        (Nat.le_refl _)
  · obtain ⟨-, hresume⟩ := Option.ite_none_right_eq_some.mp hresume
    exact Option.some.inj hresume ▸ (htaken fun _ heq => by cases heq).connectThrew hbase _
  · exact Option.some.inj hresume ▸ (htaken fun _ heq => by cases heq).connectThrew hbase _
  · exact Option.some.inj hresume ▸ (htaken fun _ heq => by cases heq).startReading hbase hc
      (of_decide_eq_true hundisturbed) _
  · exact Option.some.inj hresume ▸ (htaken fun _ heq => by cases heq).connectThrew hbase _
  · have hlocked := (htaken fun _ heq => by cases heq).lockStreams
    exact Option.some.inj hresume ▸ (hlocked _).connectThrew (hresumed.lockStreams _).toBase _
  · cases hchunk
  · exact Option.some.inj hresume ▸ (htaken fun _ heq => by cases heq).readEnded hbase _
  · exact Option.some.inj hresume ▸ (htaken fun _ heq => by cases heq).readEnded hbase _
  · exact Option.some.inj hresume ▸ h.stopDrained hsound htask
  · obtain ⟨-, hresume⟩ := Option.ite_none_right_eq_some.mp hresume
    obtain rfl := Option.some.inj hresume
    have htaken := htaken fun _ heq => by cases heq
    exact htaken.same hbase (Quiet.wait (.refl _) (fun _ heq => by cases heq) trivial) rfl
      (Nat.le_refl _)
  · have htaken := htaken fun _ heq => by cases heq
    obtain rfl := Option.some.inj hresume
    unfold Supervisor.stopEnd
    split
    · exact htaken.same hbase (.note rfl ⟨rfl, rfl, rfl⟩ id rfl (Or.inl rfl)) rfl (Nat.le_refl _)
    · exact htaken.same hbase (.note rfl ⟨rfl, rfl, rfl⟩ id rfl (Or.inl rfl)) rfl (Nat.le_refl _)
  · cases hresume


theorem Apart.handleDeviceConnected (h : Apart s₀ c s) (hbase : s.Base) :
    Apart s₀ c (s.handleDeviceConnected config) := by
  have hnote : Quiet s { s with foundPortDetached := false } :=
    .note rfl ⟨rfl, rfl, rfl⟩ id rfl (Or.inl rfl)
  unfold Supervisor.handleDeviceConnected
  dsimp only
  split
  · exact h.same hbase (.note rfl ⟨rfl, rfl, rfl⟩ id rfl (Or.inl rfl)) rfl (Nat.le_refl _)
  · next timer hstate =>
    refine h.connect hbase (.note rfl ⟨rfl, rfl, rfl⟩ id rfl (Or.inl rfl)) ?_ ?_ (Nat.le_refl _)
    · rw [hstate]
      rfl
    · show s.state ≠ .stopped
      rw [hstate]
      simp
  · next hstate =>
    split
    · exact h.same hbase hnote rfl (Nat.le_refl _)
    · refine h.connect hbase (.note rfl ⟨rfl, rfl, rfl⟩ id rfl (Or.inl rfl)) ?_ (by simp)
        (Nat.le_refl _)
      rw [hstate]
      rfl
  · next hstate =>
    refine h.connect hbase (.note rfl ⟨rfl, rfl, rfl⟩ id rfl (Or.inl rfl)) ?_ (by simp)
      (Nat.le_refl _)
    rw [hstate]
    rfl
  · exact h.same hbase hnote rfl (Nat.le_refl _)

theorem Apart.handleDeviceDisconnected (h : Apart s₀ c s) (hsound : s.Sound)
    (port : Option PortId) :
    Apart s₀ c (s.handleDeviceDisconnected config port) := by
  have hnote : Apart s₀ c { s with foundPortDetached := true } :=
    h.same hsound.toBase (.note rfl ⟨rfl, rfl, rfl⟩ id rfl (Or.inl rfl)) rfl (Nat.le_refl _)
  have hnoted : ({ s with foundPortDetached := true } : Supervisor).Sound :=
    hsound.note ⟨rfl, rfl, rfl, rfl⟩ rfl rfl rfl
  unfold Supervisor.handleDeviceDisconnected
  split
  · exact h
  dsimp only
  split
  · exact hnote.handleConnectionLoss hnoted.toBase _ _
  · exact hnote.handleConnectionLoss hnoted.toBase _ _
  · next hstate =>
    refine hnote.rest hnoted.toBase (Quiet.recordFailedAttempt (.refl _)) ?_ ?_ ?_
    · dsimp only
      rw [hstate]
      rfl
    · rw [recordFailedAttempt_state]
      split
      · rfl
      · rfl
    · rw [recordFailedAttempt_state]
      split
      · simp
      · simp
  · exact hnote

theorem Apart.timerFired (h : Apart s₀ c s) (hbase : s.Base) (timer : TimerId) :
    Apart s₀ c (s.clearTimer timer).timerFired := by
  unfold Supervisor.timerFired
  split
  · next current hstate =>
    have hstate : s.state = .reconnecting current := hstate
    refine h.connect hbase (.note rfl ⟨rfl, rfl, rfl⟩ id rfl (Or.inl rfl)) ?_ ?_ (Nat.le_refl _)
    · rw [hstate]
      rfl
    · show s.state ≠ .stopped
      rw [hstate]
      simp
  · exact h.same hbase (.note rfl ⟨rfl, rfl, rfl⟩ id rfl (Or.inl rfl)) rfl (Nat.le_refl _)

theorem Apart.writeFailed (h : Apart s₀ c s) (hbase : s.Base) :
    Apart s₀ c (s.writeFailed openId) := by
  unfold Supervisor.writeFailed
  split
  · split
    · exact h.handleConnectionLoss hbase _ _
    · exact h
  · exact h

theorem Apart.react (h : Apart s c s) (hsound : s.Sound)
    (hundisturbed : s.isUndisturbed event = true)
    (hopener : event.opener? = none) (hchunk : event.chunk = [])
    (hreact : s.react config event = some s') : Apart s c s' := by
  unfold Supervisor.react at hreact
  split at hreact
  · obtain ⟨htask, hresume⟩ := Option.ite_none_right_eq_some.mp hreact
    exact h.resume hsound htask hundisturbed hopener hchunk hresume
  · obtain ⟨-, hfired⟩ := Option.ite_none_right_eq_some.mp hreact
    exact Option.some.inj hfired ▸ h.timerFired hsound.toBase _
  · obtain ⟨-, hflushed⟩ := Option.ite_none_right_eq_some.mp hreact
    obtain rfl := Option.some.inj hflushed
    exact h.same hsound.toBase (.note rfl ⟨rfl, rfl, rfl⟩ id rfl (Or.inr rfl)) rfl (Nat.le_refl _)
  · exact Option.some.inj hreact ▸ h.writeFailed hsound.toBase
  · exact Option.some.inj hreact ▸ h.handleDeviceConnected hsound.toBase
  · exact Option.some.inj hreact ▸ h.handleDeviceDisconnected hsound _
  · obtain ⟨hpending, hsettled⟩ := Option.ite_none_right_eq_some.mp hreact
    exact Option.some.inj hsettled ▸ h.setPhase hpending (by simp) _
  · obtain ⟨closing, -, hended⟩ := Option.bind_eq_some_iff.mp hreact
    exact h.closeStepEnded hended
  · split at hreact
    · next closes hteardown =>
      obtain ⟨hclosed, hforgotten⟩ := Option.ite_none_right_eq_some.mp hreact
      refine Option.some.inj hforgotten ▸ { h with covered := fun close hclose => ?_ }
      have hmem := h.covered close hclose
      rw [hteardown] at hmem
      exact absurd hmem (of_decide_eq_true (List.all_eq_true.mp hclosed close hclose))
    · cases hreact
  · exact Option.some.inj hreact ▸
      h.same hsound.toBase (.note rfl ⟨rfl, rfl, rfl⟩ id rfl (Or.inl rfl)) rfl (Nat.le_refl _)
  · cases hreact
  · cases hreact

/-- A step that neither opens a port nor reads a chunk. -/
theorem Apart.stepRest (h : Apart s c s) (hsound : s.Sound)
    (hkeeps : s.keepsConnection event = true)
    (hopener : event.opener? = none) (hchunk : event.chunk = [])
    (hstep : s.step config event = some s') : Apart s c s' := by
  unfold Supervisor.step at hstep
  split at hstep
  · exact Option.some.inj hstep ▸ h.perform hsound _
  · split at hstep
    · cases hstep
    · next frame stack hstack => exact Option.some.inj hstep ▸ h.goOn hsound hstack hkeeps
  · obtain ⟨-, hreact⟩ := Option.ite_none_right_eq_some.mp hstep
    exact h.react hsound (Bool.and_eq_true_iff.mp hkeeps).1 hopener hchunk hreact


end Supervisor

end SerialBroker
