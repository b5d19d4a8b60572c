import Mathlib.Data.List.Perm.Subperm
import SerialBroker.Owner.UnpluggedDevice
import SerialBroker.Owner.PortSupervisorStopped

/-!
# Attempts are counted exactly

A record beside the supervisor counts the attempts that began since the counter was last restarted,
and notes every exhaustion and every report of one with the number it names. The counter of the
supervisor is that number, it stays within `maxAttempts`, and every exhaustion is reported once with
it, as long as the application does not restart the counter from the status callback of an
exhaustion: the report is made after that callback, with the counter of then.
-/

namespace SerialBroker

namespace ConnectionState

def isOpen : ConnectionState → Bool
  | .open .. => true
  | _ => false

/-- Nothing has been opened since the counter last heard of a loss. -/
def isUnopened : ConnectionState → Bool
  | .idle | .awaitingPermission | .listing | .opening .. | .reconnecting _ => true
  | .open .. | .failed | .stopped => false

/-- Whether `useGrantedPort` starts a new attempt. -/
def takesGrant : ConnectionState → Bool
  | .stopped | .open .. | .opening .. => false
  | _ => true

/-- Whether `followDevice` starts a new attempt at once: bytes that were collected are delivered
first. -/
def followsAtOnce (state : ConnectionState) (buffered : Nat) (matchesDevice : Bool) : Bool :=
  match state with
  | .stopped => false
  | .opening .. => !matchesDevice
  | .open .. => !matchesDevice && buffered = 0
  | _ => true

/-- An attempt is in progress, or a connection open. -/
def isUnderWay : ConnectionState → Bool
  | .listing | .opening .. | .open .. => true
  | _ => false

end ConnectionState

namespace Frame

/-- Whether the method restarts the counter when it goes on: `followDevice`, and the loss of a
connection that was open since `openedAt`. -/
def restartsCounter (config : ConnectionConfig) (openedAt now : Nat) : Frame → Bool
  | .followFlushed .. => true
  | .lossReported (.open ..) .retry _ =>
    config.autoReconnect && now - openedAt ≥ config.stableAfterMs
  | _ => false

/-- A loss is one of something under way, and its error that of a port. -/
def IsProper : Frame → Prop
  | .lossFlushed _ code _ => code ≠ .RECONNECT_EXHAUSTED
  | .lossReported previous .. => previous.isUnderWay = true
  | _ => True

/-- Whether the method counts a failure when it goes on. -/
def countsFailure : Frame → Bool
  | .lossReported _ .retry _ => true
  | _ => false

end Frame

def Frame.connecting? : Frame → Option Generation
  | .connecting generation => some generation
  | _ => none

/-- The code of an error of the port. -/
def Answer.code? : Answer → Option SerialBrokerErrorCode
  | .threw code | .writerThrew code | .openFailed code | .readFailed code => some code
  | _ => none

namespace Supervisor

variable {config : ConnectionConfig} {s s' s'' : Supervisor} {task : Task} {frame : Frame}
  {generation n : Generation}
  {answer : Answer} {event : SupervisorEvent} {openId : OpenId}

/-! ### the record -/

/-- The generations of the attempts that functions of `#connect` work on. -/
def attempts (s : Supervisor) : List Generation :=
  s.tasks.filterMap Task.generation? ++ s.stack.filterMap Frame.connecting?

/-- Whether an attempt begins in the step. -/
def begins (s s' : Supervisor) : Bool := s'.attempts.any fun generation => s.generation < generation

structure AttemptRecord where
  /-- The attempts since the counter was last restarted. -/
  made : Nat
  /-- When the connection was opened that was opened last. -/
  openedAt : Nat
  /-- The attempts made before each exhaustion, and the `attempts` field of each
  `RECONNECT_EXHAUSTED`. -/
  exhausted : List Nat
  reported : List Nat
  deriving DecidableEq

def AttemptRecord.init : AttemptRecord := ⟨0, 0, [], []⟩

/-- What restarts the counter: `retry`, `useGrantedPort`, `followDevice`, a connect event that
revives a resting supervisor, and the loss of a connection that was open for long enough. -/
def restarts (config : ConnectionConfig) (r : AttemptRecord) (s : Supervisor) :
    SupervisorEvent → Bool
  | .call .retry => s.state = .failed ∨ s.state = .awaitingPermission
  | .call .useGrantedPort => s.state.takesGrant
  | .call (.followDevice matchesDevice) => s.state.followsAtOnce s.buffered matchesDevice
  | .returned =>
    s.stack.head?.any fun frame => frame.restartsCounter config r.openedAt s.monotonicNow
  | .deviceConnected =>
    (s.state = .failed ∧ config.autoReconnect = true) ∨ s.state = .awaitingPermission
  | _ => false

/-- What counts an attempt, or a connection, as failed. -/
def countsFailure (s : Supervisor) : SupervisorEvent → Bool
  | .returned => s.stack.head?.any Frame.countsFailure
  | .resume (.awaitListing generation) (.found none) => !s.isStale generation
  | .deviceDisconnected _ => s.state = .awaitingPermission
  | _ => false

/-- Whether a failure that is counted leaves no attempt. -/
def exhausts (config : ConnectionConfig) (s : Supervisor) (event : SupervisorEvent)
    (s' : Supervisor) : Bool :=
  config.autoReconnect && s.countsFailure event && s'.state = .failed

def recordAttempts (config : ConnectionConfig) (s : Supervisor) (event : SupervisorEvent)
    (s' : Supervisor)
    (r : AttemptRecord) : AttemptRecord :=
  let made := (if restarts config r s event then 0 else r.made) + if s.begins s' then 1 else 0
  { made
    openedAt := if s'.state ≠ s.state ∧ s'.state.isOpen then s'.monotonicNow else r.openedAt
    exhausted := if exhausts config s event s' then r.exhausted ++ [made] else r.exhausted
    reported :=
      if s'.reports = s.reports ++ [.RECONNECT_EXHAUSTED] then r.reported ++ [s'.backoff.attempt]
      else r.reported }

/-- **The counter is the number of attempts**, and what follows from it. -/
structure Counted (config : ConnectionConfig) (s : Supervisor) (r : AttemptRecord) : Prop where
  made : s.backoff.attempt = r.made
  bound : ∀ limit, config.maxAttempts = some limit → r.made ≤ limit
  idle : s.state = .idle → r.made = 0
  room : ∀ timer, s.state = .reconnecting timer → s.backoff.hasExhausted config.maxAttempts = false
  opened : s.state.isOpen = true → s.backoff.connectedAt = some r.openedAt
  unopened : s.state.isUnopened = true → s.backoff.connectedAt = none
  proper : ∀ frame ∈ s.stack, frame.IsProper
  exhausting : .exhausted ∈ s.stack → s.state = .failed ∨ s.state = .stopped
  exhausted : r.exhausted = r.reported ++ if .exhausted ∈ s.stack then [r.made] else []

theorem init_counted : Counted config init .init where
  made := rfl
  bound _ _ := Nat.zero_le _
  idle _ := rfl
  room := nofun
  opened := nofun
  unopened _ := rfl
  proper _ h := absurd h List.not_mem_nil
  exhausting h := absurd h List.not_mem_nil
  exhausted := rfl

/-! ### what neither begins nor counts an attempt -/

/-- The counter is left alone; functions go on with generations up to `n` only. -/
structure Uncounted (n : Generation) (s s' : Supervisor) : Prop where
  backoff : s'.backoff = s.backoff
  reports : ∃ codes, s'.reports = s.reports ++ codes ∧ .RECONNECT_EXHAUSTED ∉ codes
  exhausted : .exhausted ∈ s'.stack ↔ .exhausted ∈ s.stack
  proper : ∀ frame ∈ s'.stack, frame ∈ s.stack ∨ frame.IsProper
  attempts : ∀ generation ∈ s'.attempts, generation ∈ s.attempts ∨ generation ≤ n
  state : s'.state = s.state ∨ s'.state = .failed ∨ s'.state = .stopped ∨
    (s.state = .listing ∧
      (s'.state = .awaitingPermission ∨ ∃ port openId, s'.state = .opening port openId))

/-- Fields the record does not read may change. -/
theorem Uncounted.note (hbackoff : s'.backoff = s.backoff) (hreports : s'.reports = s.reports)
    (hstack : s'.stack = s.stack)
    (htasks : ∀ task ∈ s'.tasks, task ∈ s.tasks)
    (hstate : s'.state = s.state ∨ s'.state = .failed ∨ s'.state = .stopped ∨
      (s.state = .listing ∧
        (s'.state = .awaitingPermission ∨ ∃ port openId, s'.state = .opening port openId))) :
    Uncounted n s s' where
  backoff := hbackoff
  reports := ⟨[], by rw [hreports, List.append_nil], List.not_mem_nil⟩
  exhausted := by rw [hstack]
  proper := by rw [hstack]; exact fun _ h => Or.inl h
  attempts g hg := by
    refine Or.inl ?_
    unfold Supervisor.attempts at hg ⊢
    rw [hstack] at hg
    rcases List.mem_append.mp hg with hg | hg
    · obtain ⟨task, htask, hg⟩ := List.mem_filterMap.mp hg
      exact List.mem_append_left _ (List.mem_filterMap.mpr ⟨task, htasks task htask, hg⟩)
    · exact List.mem_append_right _ hg
  state := hstate

theorem Uncounted.refl (s : Supervisor) : Uncounted n s s :=
  .note rfl rfl rfl (fun _ h => h) (Or.inl rfl)

theorem Uncounted.same (h : Uncounted n s s') (hbackoff : s''.backoff = s'.backoff)
    (hreports : s''.reports = s'.reports)
    (hstack : s''.stack = s'.stack) (htasks : s''.tasks = s'.tasks)
    (hstate : s''.state = s'.state) : Uncounted n s s'' where
  backoff := hbackoff.trans h.backoff
  reports := by rw [hreports]; exact h.reports
  exhausted := by rw [hstack]; exact h.exhausted
  proper := by rw [hstack]; exact h.proper
  attempts := by
    unfold Supervisor.attempts
    rw [hstack, htasks]
    exact h.attempts
  state := by rw [hstate]; exact h.state

theorem Uncounted.wait (h : Uncounted n s s') (htask : ∀ g, task.generation? = some g → g ≤ n) :
    Uncounted n s (s'.wait task) where
  backoff := h.backoff
  reports := h.reports
  exhausted := h.exhausted
  proper := h.proper
  attempts g hg := by
    unfold Supervisor.attempts Supervisor.wait at hg
    rw [List.filterMap_append, List.append_assoc] at hg
    rcases List.mem_append.mp hg with hg | hg
    · exact h.attempts g (List.mem_append_left _ hg)
    · rcases List.mem_append.mp hg with hg | hg
      · obtain ⟨other, hother, hother'⟩ := List.mem_filterMap.mp hg
        rw [List.mem_singleton.mp hother] at hother'
        exact Or.inr (htask g hother')
      · exact h.attempts g (List.mem_append_right _ hg)
  state := h.state

theorem Uncounted.callback (h : Uncounted n s s') (hframe : frame ≠ .exhausted)
    (hnone : frame.connecting? = none)
    (hproper : frame.IsProper) : Uncounted n s (s'.callback frame) where
  backoff := h.backoff
  reports := h.reports
  exhausted := by
    rw [← h.exhausted]
    unfold Supervisor.callback
    rw [List.mem_cons]
    exact or_iff_right fun heq => hframe heq.symm
  proper f hf := by
    rcases List.mem_cons.mp hf with rfl | hf
    · exact Or.inr hproper
    · exact h.proper f hf
  attempts g hg := by
    unfold Supervisor.attempts Supervisor.callback at hg
    rw [List.filterMap_cons_none hnone] at hg
    exact h.attempts g hg
  state := h.state

theorem Uncounted.setStatus (h : Uncounted n s s') (status : SerialBrokerStatus) :
    Uncounted n s (s'.setStatus status) := by
  unfold Supervisor.setStatus
  split
  · exact h
  · refine Uncounted.callback ?_ nofun rfl trivial
    exact h.same rfl rfl rfl rfl rfl

theorem Uncounted.report (h : Uncounted n s s') {code : SerialBrokerErrorCode}
    (hcode : code ≠ .RECONNECT_EXHAUSTED)
    (hframe : frame ≠ .exhausted) (hnone : frame.connecting? = none)
    (hproper : frame.IsProper) : Uncounted n s (s'.report code frame) := by
  refine Uncounted.callback ?_ hframe hnone hproper
  refine ⟨h.backoff, ?_, h.exhausted, h.proper, h.attempts, h.state⟩
  obtain ⟨codes, hcodes, hnot⟩ := h.reports
  refine ⟨codes ++ [code], by rw [← List.append_assoc, ← hcodes], ?_⟩
  rw [List.mem_append, List.mem_singleton]
  exact not_or.mpr ⟨hnot, fun heq => hcode heq.symm⟩

theorem Uncounted.listPorts (h : Uncounted n s s') (hle : generation ≤ n) :
    Uncounted n s (s'.listPorts generation) := by
  refine Uncounted.wait ?_ fun g hg => Option.some.inj hg ▸ hle
  exact h.same rfl rfl rfl rfl rfl

theorem Uncounted.findPort (h : Uncounted n s s') (hle : generation ≤ n) :
    Uncounted n s (s'.findPort generation) := by
  unfold Supervisor.findPort
  split
  · exact h.wait fun g hg => Option.some.inj hg ▸ hle
  · exact h.listPorts hle

/-- The supervisor is left in `failed`. -/
theorem Uncounted.giveUp (h : Uncounted n s s') : Uncounted n s s'.giveUp := by
  refine Uncounted.setStatus ?_ _
  exact ⟨h.backoff, h.reports, h.exhausted, h.proper, h.attempts, Or.inr (Or.inl rfl)⟩

theorem Uncounted.reportLoss (h : Uncounted n s s') {previous : ConnectionState}
    (hprevious : previous.isUnderWay = true)
    {code : SerialBrokerErrorCode} (hcode : code ≠ .RECONNECT_EXHAUSTED) (next : AfterLoss) :
    Uncounted n s (s'.reportLoss previous code next) := by
  refine Uncounted.report ?_ hcode nofun rfl hprevious
  exact h.same rfl rfl rfl rfl rfl

theorem Uncounted.handleConnectionLoss (h : Uncounted n s s') (hstate : s'.state.isUnderWay = true)
    {code : SerialBrokerErrorCode}
    (hcode : code ≠ .RECONNECT_EXHAUSTED) (next : AfterLoss) :
    Uncounted n s (s'.handleConnectionLoss code next) := by
  unfold Supervisor.handleConnectionLoss
  split
  · exact h
  · exact h
  · split
    · refine Uncounted.callback ?_ nofun rfl hcode
      exact h.same rfl rfl rfl rfl rfl
    · exact h.reportLoss rfl hcode next
  · exact h.reportLoss hstate hcode next

theorem Uncounted.unlessStale (h : Uncounted n s s')
    (hstate : ¬ s'.isStale generation = true → s'.state.isUnderWay = true)
    {code : SerialBrokerErrorCode} (hcode : code ≠ .RECONNECT_EXHAUSTED) (next : AfterLoss) :
    Uncounted n s (if s'.isStale generation then s' else s'.handleConnectionLoss code next) := by
  split
  · exact h
  · rename_i hstale
    exact h.handleConnectionLoss (hstate hstale) hcode next

theorem Uncounted.connectThrew (h : Uncounted n s s')
    (hstate : ¬ s'.isStale generation = true → s'.state.isUnderWay = true)
    {code : SerialBrokerErrorCode} (hcode : code ≠ .RECONNECT_EXHAUSTED) :
    Uncounted n s (s'.connectThrew generation code) :=
  h.unlessStale hstate hcode _

theorem Uncounted.listingFailed (h : Uncounted n s s')
    (hstate : ¬ s'.isStale generation = true → s'.state.isUnderWay = true)
    (isTimeout : Bool) : Uncounted n s (s'.listingFailed generation isTimeout) := by
  unfold Supervisor.listingFailed
  split
  · exact h
  rename_i hstale
  split
  · exact h.handleConnectionLoss (hstate hstale) (by decide) _
  · exact h.report (by decide) nofun rfl trivial

theorem Uncounted.readChunk (h : Uncounted n s s') (hle : generation ≤ n) (bytes : Nat) :
    Uncounted n s (s'.readChunk config generation openId bytes) := by
  have htask : ∀ g, (Task.reading generation openId).generation? = some g → g ≤ n :=
    fun g hg => Option.some.inj hg ▸ hle
  unfold Supervisor.readChunk
  split
  · exact h
  split
  · exact h.wait htask
  dsimp only
  split
  · refine Uncounted.callback ?_ nofun rfl trivial
    exact h.same rfl rfl rfl rfl rfl
  · refine Uncounted.wait ?_ htask
    exact h.same rfl rfl rfl rfl rfl

theorem Uncounted.stopNow (h : Uncounted n s s') (previous : ConnectionState) :
    Uncounted n s (s'.stopNow previous) := by
  have hstopped : ∀ t : Supervisor, t.backoff = s'.backoff → t.reports = s'.reports →
      t.stack = s'.stack → t.tasks = s'.tasks →
      t.state = .stopped → Uncounted n s t := by
    intro t hbackoff hreports hstack htasks hstate
    have hsame : Uncounted n s { t with state := s'.state } :=
      h.same hbackoff hreports hstack htasks rfl
    exact ⟨hsame.backoff, hsame.reports, hsame.exhausted, hsame.proper, hsame.attempts,
      Or.inr (Or.inr (Or.inl hstate))⟩
  unfold Supervisor.stopNow
  cases previous with
  | _ => exact Uncounted.wait (hstopped _ rfl rfl rfl rfl rfl) nofun

theorem Uncounted.stop (h : Uncounted n s s') : Uncounted n s s'.stop := by
  have hnext : Uncounted n s { s' with generation := s'.generation + 1 } :=
    h.same rfl rfl rfl rfl rfl
  unfold Supervisor.stop
  split
  · exact h
  dsimp only
  split
  · split
    · refine Uncounted.callback ?_ nofun rfl trivial
      exact hnext.same rfl rfl rfl rfl rfl
    · exact hnext.stopNow _
  · exact hnext.stopNow _

/-- What the record says is kept where the counter is left alone. -/
theorem Counted.of_uncounted {r : AttemptRecord} (h : s.Counted config r)
    (hsame : Uncounted n s s') : s'.Counted config r := by
  have hopening : ∀ {P : ConnectionState → Prop}, P .failed → P .stopped → P .awaitingPermission →
      (∀ port openId, P (.opening port openId)) → (s'.state = s.state → P s'.state) →
        P s'.state := by
    intro P hfailed hstopped hawaiting hopening hkept
    rcases hsame.state with hstate | hstate | hstate | ⟨-, hstate | ⟨port, openId, hstate⟩⟩
    · exact hkept hstate
    · exact hstate ▸ hfailed
    · exact hstate ▸ hstopped
    · exact hstate ▸ hawaiting
    · exact hstate ▸ hopening port openId
  have hproper : ∀ frame ∈ s'.stack, frame.IsProper :=
    fun frame hmem => (hsame.proper frame hmem).elim (h.proper frame) id
  refine ⟨by rw [hsame.backoff]; exact h.made, h.bound, ?_, ?_, ?_, fun hunopened => ?_, hproper,
    fun hmem => ?_, ?_⟩
  · exact hopening (P := fun state => state = .idle → r.made = 0) nofun nofun nofun nofun
        fun hstate hidle =>
      h.idle (hstate ▸ hidle)
  · rw [hsame.backoff]
    exact hopening (P := fun state => ∀ timer, state = .reconnecting timer →
        s.backoff.hasExhausted config.maxAttempts = false)
      nofun nofun nofun nofun fun hstate timer htimer => h.room timer (hstate ▸ htimer)
  · rw [hsame.backoff]
    exact hopening (P := fun state => state.isOpen = true → s.backoff.connectedAt = some r.openedAt)
      nofun nofun nofun nofun fun hstate hopen => h.opened (hstate ▸ hopen)
  · rw [hsame.backoff]
    rcases hsame.state with hstate | hstate | hstate | ⟨hlisting, -⟩
    · exact h.unopened (hstate ▸ hunopened)
    · exact nomatch hstate ▸ hunopened
    · exact nomatch hstate ▸ hunopened
    · exact h.unopened (by rw [hlisting]; rfl)
  · have hbefore := h.exhausting (hsame.exhausted.mp hmem)
    rcases hsame.state with hstate | hstate | hstate | ⟨hlisting, -⟩
    · rwa [hstate]
    · exact Or.inl hstate
    · exact Or.inr hstate
    · rcases hbefore with hfailed | hstopped
      · exact nomatch hlisting.symm.trans hfailed
      · exact nomatch hlisting.symm.trans hstopped
  · rw [h.exhausted]
    by_cases hmem : .exhausted ∈ s.stack
    · rw [if_pos hmem, if_pos (hsame.exhausted.mpr hmem)]
    · rw [if_neg hmem, if_neg fun hmem' => hmem (hsame.exhausted.mp hmem')]

/-! ### an attempt that begins -/

theorem Base.attempts_le (h : s.Base) : ∀ g ∈ s.attempts, g ≤ s.generation := by
  intro g hg
  refine h.le g (mem_chains.mpr ?_)
  rcases List.mem_append.mp hg with hg | hg
  · exact Or.inl (List.mem_filterMap.mp hg)
  · obtain ⟨frame, hframe, hg⟩ := List.mem_filterMap.mp hg
    refine Or.inr ⟨frame, hframe, ?_⟩
    cases frame with
    | connecting generation => exact hg
    | _ => exact nomatch hg

theorem begins_of_uncounted (h : s.Base) (hsame : Uncounted s.generation s s') :
    s.begins s' = false := by
  refine List.any_eq_false.mpr fun g hg hlt => ?_
  have hlt : s.generation < g := of_decide_eq_true hlt
  rcases hsame.attempts g hg with hmem | hle
  · exact Nat.lt_irrefl _ (Nat.lt_of_lt_of_le hlt (h.attempts_le g hmem))
  · exact Nat.lt_irrefl _ (Nat.lt_of_lt_of_le hlt hle)

theorem begins_connect {s₁ : Supervisor} (hle : s.generation ≤ s₁.generation)
    (hstate : s₁.state ≠ .stopped) :
    s.begins s₁.connect = true := by
  have htask : ∀ (t : Supervisor) (task : Task), task.generation? = some (s₁.generation + 1) →
      s₁.generation + 1 ∈ (t.wait task).attempts := by
    intro t task htask
    refine List.mem_append_left _ (List.mem_filterMap.mpr ⟨task, ?_, htask⟩)
    exact List.mem_append_right _ (List.mem_singleton_self _)
  refine List.any_eq_true.mpr ⟨s₁.generation + 1, ?_, decide_eq_true (Nat.lt_succ_of_le hle)⟩
  unfold Supervisor.connect
  rw [if_neg hstate]
  dsimp only
  split
  · unfold Supervisor.findPort
    split
    · exact htask _ _ rfl
    · exact htask _ _ rfl
  · exact List.mem_append_right _
      (List.mem_filterMap.mpr ⟨.connecting (s₁.generation + 1), List.mem_cons_self, rfl⟩)

/-- The status callback of `#connect` adds no other frame. -/
theorem mem_connect_stack (hstate : s.state ≠ .stopped) (hframe : frame.connecting? = none) :
    frame ∈ s.connect.stack ↔ frame ∈ s.stack := by
  rcases (connect_effect hstate).2.2.2.2 with hstack | hstack
  · rw [hstack]
  · rw [hstack, List.mem_cons]
    refine or_iff_right fun heq => ?_
    rw [heq] at hframe
    exact nomatch hframe

theorem Counted.connect {r : AttemptRecord} (h : s.Counted config r) (hstate : s.state ≠ .stopped)
    (hroom : ∀ limit, config.maxAttempts = some limit → r.made < limit)
    (hnone : s.backoff.connectedAt = none)
    (hnot : .exhausted ∉ s.stack) : s.connect.Counted config { r with made := r.made + 1 } := by
  obtain ⟨hbackoff, hlisting, -, -, -⟩ := connect_effect hstate
  have hexhausted := h.exhausted
  rw [if_neg hnot] at hexhausted
  have hnot' : .exhausted ∉ s.connect.stack :=
    fun hmem => hnot ((mem_connect_stack hstate rfl).mp hmem)
  have hproper : ∀ frame ∈ s.connect.stack, frame.IsProper := by
    intro frame hmem
    cases hframe : frame.connecting? with
    | none => exact h.proper frame ((mem_connect_stack hstate hframe).mp hmem)
    | some g =>
      cases frame with
      | connecting generation => trivial
      | _ => exact nomatch hframe
  refine ⟨?_, hroom, ?_, ?_, ?_, fun _ => ?_, hproper, fun hmem => absurd hmem hnot', ?_⟩
  · rw [hbackoff, ← h.made]
    rfl
  · rw [hlisting]
    nofun
  · rw [hlisting]
    nofun
  · rw [hlisting]
    nofun
  · rw [hbackoff]
    exact hnone
  · rw [if_neg hnot']
    exact hexhausted

/-! ### a failure that is counted -/

variable (config s) in
theorem recordFailedAttempt_attempts : (s.recordFailedAttempt config).attempts = s.attempts := by
  have hstatus : ∀ (t : Supervisor) status, (t.setStatus status).attempts = t.attempts := by
    intro t status
    unfold Supervisor.setStatus
    split
    · rfl
    · rfl
  unfold Supervisor.recordFailedAttempt
  split
  · exact hstatus _ _
  dsimp only
  split
  · split
    · rfl
    · rfl
  · exact hstatus _ _

theorem recordDisconnected_attempt_some {b : BackoffState} {now connectedAt stableAfterMs : Nat}
    (hconnected : b.connectedAt = some connectedAt) :
    (b.recordDisconnected now stableAfterMs).attempt =
      if now - connectedAt ≥ stableAfterMs then 0 else b.attempt := by
  unfold BackoffState.recordDisconnected
  rw [hconnected]
  dsimp only
  split
  · rfl
  · rfl

theorem recordDisconnected_attempt_none {b : BackoffState} {now stableAfterMs : Nat}
    (hnone : b.connectedAt = none) :
    (b.recordDisconnected now stableAfterMs).attempt = b.attempt := by
  unfold BackoffState.recordDisconnected
  rw [hnone]

theorem recordDisconnected_connectedAt (b : BackoffState) (now stableAfterMs : Nat) :
    (b.recordDisconnected now stableAfterMs).connectedAt = none := by
  unfold BackoffState.recordDisconnected
  split
  · split
    · rfl
    · rfl
  · rfl

/-- What `#recordFailedAttempt` does to the counter and what depends on it, where the supervisor
reconnects. -/
theorem recordFailedAttempt_effect (hreconnects : config.autoReconnect = true) :
    let s' := s.recordFailedAttempt config
    s'.backoff = s.backoff.recordDisconnected s.monotonicNow config.stableAfterMs ∧
      ((s'.state = .failed ∧ s'.reports = s.reports ++ [.RECONNECT_EXHAUSTED] ∧
        s'.stack = .done :: s.stack) ∨
        (s'.state = .failed ∧ s'.reports = s.reports ∧ s'.stack = .exhausted :: s.stack) ∨
        (s'.backoff.hasExhausted config.maxAttempts = false ∧ s'.state = .reconnecting s.nextTimer ∧
          s'.reports = s.reports ∧
          (s'.stack = s.stack ∨ s'.stack = .done :: s.stack))) := by
  unfold Supervisor.recordFailedAttempt
  rw [if_neg (by rw [hreconnects]; nofun)]
  generalize s.backoff.recordDisconnected s.monotonicNow config.stableAfterMs = backoff
  dsimp only
  split
  · split
    · exact ⟨rfl, Or.inl ⟨rfl, rfl, rfl⟩⟩
    · exact ⟨rfl, Or.inr (Or.inl ⟨rfl, rfl, rfl⟩)⟩
  · rename_i hroom
    have hroom := Bool.eq_false_iff.mpr hroom
    unfold Supervisor.setStatus
    split
    · exact ⟨rfl, Or.inr (Or.inr ⟨hroom, rfl, rfl, Or.inl rfl⟩)⟩
    · exact ⟨rfl, Or.inr (Or.inr ⟨hroom, rfl, rfl, Or.inr rfl⟩)⟩

/-- A failure is counted, and the exhaustion it may be is noted with the number of attempts before
it. -/
theorem Counted.recordFailedAttempt {r : AttemptRecord} {made : Nat} (h : s.Counted config r)
    (hstack : s.stack = [])
    (hreconnects : config.autoReconnect = true)
    (hmade : (s.backoff.recordDisconnected s.monotonicNow config.stableAfterMs).attempt = made)
    (hle : made ≤ r.made)
    (hs' : s.recordFailedAttempt config = s') :
    s'.Counted config
      { r with
        made
        exhausted := if s'.state = .failed then r.exhausted ++ [made] else r.exhausted
        reported :=
          if s'.reports = s.reports ++ [.RECONNECT_EXHAUSTED] then
            r.reported ++ [s'.backoff.attempt]
          else r.reported } := by
  obtain ⟨hbackoff, heffect⟩ := recordFailedAttempt_effect (s := s) hreconnects
  rw [hs', hstack] at heffect
  rw [hs'] at hbackoff
  have hreported : r.exhausted = r.reported := by
    rw [h.exhausted, hstack, if_neg List.not_mem_nil, List.append_nil]
  have hbound : ∀ limit, config.maxAttempts = some limit → made ≤ limit := fun limit hlimit =>
    Nat.le_trans hle (h.bound limit hlimit)
  have hattempt : s'.backoff.attempt = made := by rw [hbackoff, hmade]
  have hnone : s'.backoff.connectedAt = none := by
    rw [hbackoff]
    exact recordDisconnected_connectedAt _ _ _
  have hsame : ¬ s.reports = s.reports ++ [.RECONNECT_EXHAUSTED] := by simp
  have hproper : ∀ frame ∈ s'.stack, frame.IsProper := by
    rcases heffect with ⟨-, -, hstack'⟩ | ⟨-, -, hstack'⟩ | ⟨-, -, -, hstack' | hstack'⟩
    all_goals
      rw [hstack']
      simp [Frame.IsProper]
  rcases heffect with ⟨hstate, hreports, hstack'⟩ | ⟨hstate, hreports, hstack'⟩
    | ⟨hroom, hstate, hreports, hstack'⟩
  · refine ⟨hattempt, hbound, ?_, ?_, ?_, fun _ => hnone, hproper, fun _ => Or.inl hstate, ?_⟩
    · rw [hstate]
      nofun
    · rw [hstate]
      nofun
    · rw [hstate]
      nofun
    · rw [if_pos hstate, if_pos hreports, hstack', if_neg (by decide), List.append_nil,
        hreported, hattempt]
  · refine ⟨hattempt, hbound, ?_, ?_, ?_, fun _ => hnone, hproper, fun _ => Or.inl hstate, ?_⟩
    · rw [hstate]
      nofun
    · rw [hstate]
      nofun
    · rw [hstate]
      nofun
    · rw [if_pos hstate, hreports, if_neg hsame, hstack', if_pos List.mem_cons_self, hreported]
  · have hnot : .exhausted ∉ s'.stack := by
      rcases hstack' with hstack' | hstack'
      · rw [hstack']
        exact List.not_mem_nil
      · rw [hstack']
        decide
    refine ⟨hattempt, hbound, ?_, fun _ _ => hroom, ?_, fun _ => hnone, hproper,
      fun hmem => absurd hmem hnot, ?_⟩
    · rw [hstate]
      nofun
    · rw [hstate]
      nofun
    · rw [if_neg (by rw [hstate]; nofun), hreports, if_neg hsame, if_neg hnot, List.append_nil]
      exact hreported

/-! ### every step -/

theorem recordAttempts_quiet {r : AttemptRecord} (hbegins : s.begins s' = false)
    (hrestarts : restarts config r s event = false)
    (hexhausts : exhausts config s event s' = false)
    (hopened : ¬ (s'.state ≠ s.state ∧ s'.state.isOpen = true)) :
    recordAttempts config s event s' r =
      { r with
        reported := if s'.reports = s.reports ++ [.RECONNECT_EXHAUSTED] then r.reported ++
            [s'.backoff.attempt]
          else r.reported } := by
  unfold recordAttempts
  rw [hbegins, hrestarts, hexhausts, if_neg hopened]
  rfl

theorem Counted.step_uncounted {r : AttemptRecord} (h : s.Counted config r) (hbase : s.Base)
    (hsame : Uncounted s.generation s s')
    (hrestarts : restarts config r s event = false)
    (hexhausts : exhausts config s event s' = false) :
    s'.Counted config (recordAttempts config s event s' r) := by
  have hopened : ¬ (s'.state ≠ s.state ∧ s'.state.isOpen = true) := by
    rintro ⟨hne, hopen⟩
    rcases hsame.state with hstate | hstate | hstate | ⟨-, hstate | ⟨port, openId, hstate⟩⟩
    · exact hne hstate
    all_goals exact nomatch hstate ▸ hopen
  have hreports : ¬ s'.reports = s.reports ++ [.RECONNECT_EXHAUSTED] := by
    obtain ⟨codes, hcodes, hnot⟩ := hsame.reports
    rw [hcodes]
    intro heq
    rw [List.append_cancel_left heq] at hnot
    exact hnot (List.mem_singleton_self _)
  have hrecord : recordAttempts config s event s' r = r := by
    rw [recordAttempts_quiet (begins_of_uncounted hbase hsame) hrestarts hexhausts hopened,
      if_neg hreports]
  rw [hrecord]
  exact h.of_uncounted hsame

/-- An attempt that begins from `s₁`, which the step made of `s`. -/
theorem Counted.step_connect {r : AttemptRecord}
    {s₁ : Supervisor} (made : Nat) (h : s₁.Counted config { r with made })
    (hle : s.generation ≤ s₁.generation) (hreports : s₁.reports = s.reports)
    (hstate : s₁.state ≠ .stopped)
    (hroom : ∀ limit, config.maxAttempts = some limit → made < limit)
    (hnone : s₁.backoff.connectedAt = none)
    (hnot : .exhausted ∉ s₁.stack)
    (hmade : (if restarts config r s event then 0 else r.made) = made)
    (hcounts : s.countsFailure event = false) :
    s₁.connect.Counted config (recordAttempts config s event s₁.connect r) := by
  obtain ⟨-, hlisting, hreports', -, -⟩ := connect_effect hstate
  have hsame : ¬ s₁.connect.reports = s.reports ++ [.RECONNECT_EXHAUSTED] := by
    rw [hreports', hreports]
    simp
  have hrecord : recordAttempts config s event s₁.connect r = { r with made := made + 1 } := by
    unfold recordAttempts exhausts
    rw [begins_connect hle hstate, hmade, hcounts, if_neg hsame, hlisting]
    simp [ConnectionState.isOpen]
  rw [hrecord]
  exact h.connect hstate hroom hnone hnot

/-- An attempt that begins with a counter that is restarted. -/
theorem Counted.step_restart {r : AttemptRecord} {s₁ : Supervisor} (h : s.Counted config r)
    (hlimit : ∀ limit, config.maxAttempts = some limit → 0 < limit) (hnot : .exhausted ∉ s.stack)
    (hstack : ∀ frame ∈ s₁.stack, frame ∈ s.stack) (hle : s.generation ≤ s₁.generation)
    (hreports : s₁.reports = s.reports)
    (hbackoff : s₁.backoff = .reset) (hidle : s₁.state = .idle)
    (hrestarts : restarts config r s event = true)
    (hcounts : s.countsFailure event = false) :
    s₁.connect.Counted config (recordAttempts config s event s₁.connect r) := by
  have hexhausted := h.exhausted
  rw [if_neg hnot] at hexhausted
  have hnot : .exhausted ∉ s₁.stack := fun hmem => hnot (hstack _ hmem)
  have hrestarted : s₁.Counted config { r with made := 0 } := by
    refine ⟨by rw [hbackoff]; rfl, fun _ _ => Nat.zero_le _, fun _ => rfl, ?_, ?_,
      fun _ => by rw [hbackoff]; rfl,
      fun frame hmem => h.proper frame (hstack frame hmem), fun hmem => absurd hmem hnot, ?_⟩
    · rw [hidle]
      nofun
    · rw [hidle]
      nofun
    · rw [if_neg hnot]
      exact hexhausted
  refine Counted.step_connect _ hrestarted hle hreports ?_ hlimit ?_ hnot ?_ hcounts
  · rw [hidle]
    nofun
  · rw [hbackoff]
    rfl
  · rw [if_pos hrestarts]

/-- A failure that is counted from `s₁`, which the step made of `s`. -/
theorem Counted.step_failed {r : AttemptRecord} {s₁ : Supervisor} (h : s.Counted config r)
    (hbase : s.Base)
    (hsame : Uncounted s.generation s s₁) (hstack : s₁.stack = [])
    (hreports : s₁.reports = s.reports)
    (hcounts : s.countsFailure event = true)
    (hrestarts : config.autoReconnect = false → restarts config r s event = false)
    (hmade : config.autoReconnect = true →
      (s₁.backoff.recordDisconnected s₁.monotonicNow config.stableAfterMs).attempt =
      if restarts config r s event then 0 else r.made) :
    (s₁.recordFailedAttempt config).Counted config
    (recordAttempts config s event (s₁.recordFailedAttempt config) r) := by
  cases hreconnects : config.autoReconnect with
  | false =>
    have hgiveUp : s₁.recordFailedAttempt config = s₁.giveUp := by
      unfold Supervisor.recordFailedAttempt
      rw [if_pos hreconnects]
    rw [hgiveUp]
    refine h.step_uncounted hbase hsame.giveUp (hrestarts hreconnects) ?_
    unfold exhausts
    rw [hreconnects]
    rfl
  | true =>
    have hle : (if restarts config r s event then 0 else r.made) ≤ r.made := by
      split
      · exact Nat.zero_le _
      · exact Nat.le_refl _
    have hstate' := recordFailedAttempt_state config s₁
    have hattempts := recordFailedAttempt_attempts config s₁
    generalize hs' : s₁.recordFailedAttempt config = s' at hstate' hattempts ⊢
    have hcounted := (h.of_uncounted hsame).recordFailedAttempt hstack hreconnects
      (hmade hreconnects) hle hs'
    have hbegins : s.begins s' = false := by
      refine List.any_eq_false.mpr fun g hg hlt => ?_
      rw [hattempts] at hg
      have hle : g ≤ s.generation := (hsame.attempts g hg).elim (hbase.attempts_le g) id
      exact Nat.lt_irrefl _ (Nat.lt_of_lt_of_le (of_decide_eq_true hlt) hle)
    have hopened : s'.state.isOpen = false := by
      rw [hstate']
      split
      · rfl
      · rfl
    have hexhausts : exhausts config s event s' = decide (s'.state = .failed) := by
      unfold exhausts
      rw [hreconnects, hcounts]
      rfl
    have hrecord : recordAttempts config s event s' r =
        { r with
          made := if restarts config r s event then 0 else r.made
          exhausted :=
            if s'.state = .failed then
              r.exhausted ++ [if restarts config r s event then 0 else r.made]
            else r.exhausted
          reported := if s'.reports = s₁.reports ++ [.RECONNECT_EXHAUSTED] then
              r.reported ++ [s'.backoff.attempt]
            else r.reported } := by
      unfold recordAttempts
      rw [hbegins, hopened, hexhausts, hreports]
      simp
    rw [hrecord]
    exact hcounted

/-! ### the events -/

theorem Uncounted.popped {stack : List Frame} (hstack : s.stack = frame :: stack)
    (hne : frame ≠ .exhausted) :
    Uncounted n s { s with stack } where
  backoff := rfl
  reports := ⟨[], (List.append_nil _).symm, List.not_mem_nil⟩
  exhausted := by
    rw [hstack, List.mem_cons]
    exact (or_iff_right fun heq => hne heq.symm).symm
  proper _ hmem := Or.inl (hstack ▸ List.mem_cons_of_mem _ hmem)
  attempts g hg := by
    refine Or.inl ?_
    rcases List.mem_append.mp hg with hg | hg
    · exact List.mem_append_left _ hg
    · obtain ⟨f, hf, hg⟩ := List.mem_filterMap.mp hg
      exact List.mem_append_right _
        (List.mem_filterMap.mpr ⟨f, hstack ▸ List.mem_cons_of_mem _ hf, hg⟩)
  state := Or.inl rfl

theorem Uncounted.closeLost (h : Uncounted n s s') (previous : ConnectionState) (step : CloseStep) :
    Uncounted n s (s'.closeLost previous step) := by
  unfold Supervisor.closeLost
  cases previous with
  | «open» | opening => exact h.same rfl rfl rfl rfl rfl
  | _ => exact h

/-- What a close that begins leaves alone. -/
theorem closeLost_fields (s : Supervisor) (previous : ConnectionState) (step : CloseStep) :
    (s.closeLost previous step).stack = s.stack ∧ (s.closeLost previous step).reports = s.reports ∧
      (s.closeLost previous step).generation = s.generation ∧
        (s.closeLost previous step).backoff = s.backoff ∧
      (s.closeLost previous step).monotonicNow = s.monotonicNow := by
  unfold Supervisor.closeLost
  cases previous <;> exact ⟨rfl, rfl, rfl, rfl, rfl⟩

/-- `followDevice` restarts the counter for its attempt. -/
theorem Counted.step_followNow {r : AttemptRecord} {s₁ : Supervisor} (h : s.Counted config r)
    (hlimit : ∀ limit, config.maxAttempts = some limit → 0 < limit) (hnot : .exhausted ∉ s.stack)
    (hstack : ∀ frame ∈ s₁.stack, frame ∈ s.stack) (hle : s.generation ≤ s₁.generation)
    (hreports : s₁.reports = s.reports)
    (hrestarts : restarts config r s event = true) (hcounts : s.countsFailure event = false)
    (previous : ConnectionState) :
    (s₁.followNow previous).Counted config
    (recordAttempts config s event (s₁.followNow previous) r) := by
  obtain ⟨hstack₁, hreports₁, hgeneration₁, -, -⟩ := closeLost_fields s₁ previous .draining
  rw [followNow_eq]
  exact h.step_restart hlimit hnot (hstack₁ ▸ hstack) (hgeneration₁ ▸ hle)
    (hreports₁.trans hreports) rfl rfl hrestarts hcounts

/-- No call but a restart of the counter begins an attempt, and the first `start`. -/
theorem Counted.perform {r : AttemptRecord} (h : s.Counted config r) (hbase : s.Base)
    (hlimit : ∀ limit, config.maxAttempts = some limit → 0 < limit) (call : SupervisorCall)
    (hcalm : restarts config r s (.call call) = true → .exhausted ∉ s.stack) :
    (s.perform call).Counted config (recordAttempts config s (.call call) (s.perform call) r) := by
  have hexhausts : ∀ call s', exhausts config s (.call call) s' = false := by
    intro call s'
    simp [exhausts, countsFailure]
  have hsame : ∀ {call s'}, Uncounted s.generation s s' → restarts config r s (.call call) = false →
      s'.Counted config (recordAttempts config s (.call call) s' r) := fun hsame hrestarts =>
    h.step_uncounted hbase hsame hrestarts (hexhausts _ _)
  have hagain : ∀ {call timers}, restarts config r s (.call call) = true → .exhausted ∉ s.stack →
      ({ s with timers, backoff := .reset, state := .idle } : Supervisor).connect.Counted config
          (recordAttempts config s
        (.call call) ({ s with timers, backoff := .reset, state := .idle } : Supervisor).connect
          r) := fun hrestarts hnot =>
    h.step_restart hlimit hnot (fun _ hmem => hmem) (Nat.le_refl _) rfl rfl rfl hrestarts rfl
  cases call with
  | start isFailed =>
    change (s.start isFailed).Counted config (recordAttempts config s _ (s.start isFailed) r)
    unfold Supervisor.start
    split
    · exact hsame (.refl s) rfl
    rename_i hidle
    have hidle : s.state = .idle := not_not.mp hidle
    split
    · refine hsame (Uncounted.setStatus ?_ _) rfl
      exact .note rfl rfl rfl (fun _ h => h) (Or.inr (Or.inl rfl))
    · have hnot : .exhausted ∉ s.stack := fun hmem => by
        rcases h.exhausting hmem with hstate | hstate
        · exact nomatch hidle.symm.trans hstate
        · exact nomatch hidle.symm.trans hstate
      refine Counted.step_connect r.made h (Nat.le_refl _) rfl (by rw [hidle]; nofun) ?_
        ?_ hnot rfl rfl
      · rw [h.idle hidle]
        exact hlimit
      · exact h.unopened (by rw [hidle]; rfl)
  | stop => exact hsame (Uncounted.stop (.refl s)) rfl
  | retry =>
    change s.retry.Counted config (recordAttempts config s _ s.retry r)
    unfold Supervisor.retry
    split
    · rename_i hstate
      have hrestarts : restarts config r s (.call .retry) = true := decide_eq_true hstate
      exact hagain hrestarts (hcalm hrestarts)
    · rename_i hstate
      exact hsame (.refl s) (decide_eq_false hstate)
  | useGrantedPort =>
    change s.useGrantedPort.Counted config (recordAttempts config s _ s.useGrantedPort r)
    have hr : restarts config r s (.call .useGrantedPort) = s.state.takesGrant := rfl
    unfold Supervisor.useGrantedPort
    cases hstate : s.state with
    | stopped | «open» | opening =>
      rw [hstate] at hr
      exact hsame (.refl s) hr
    | _ =>
      rw [hstate] at hr
      exact hagain hr (hcalm hr)
  | followDevice matchesDevice =>
    change (s.followDevice matchesDevice).Counted config
      (recordAttempts config s _ (s.followDevice matchesDevice) r)
    have hfollow : ∀ {s₁ : Supervisor} (previous : ConnectionState), s.generation ≤ s₁.generation →
        s₁.reports = s.reports →
        s₁.stack = s.stack → restarts config r s (.call (.followDevice matchesDevice)) = true →
        (s₁.followNow previous).Counted config
            (recordAttempts config s (.call (.followDevice matchesDevice))
          (s₁.followNow previous) r) := fun previous hle hreports hstack hrestarts =>
      h.step_followNow hlimit (hcalm hrestarts) (fun _ hmem => hstack ▸ hmem) hle hreports
        hrestarts rfl previous
    have hr : restarts config r s (.call (.followDevice matchesDevice)) = s.state.followsAtOnce
      s.buffered matchesDevice := rfl
    unfold Supervisor.followDevice
    cases hstate : s.state with
    | stopped =>
      rw [hstate] at hr
      exact hsame (.refl s) hr
    | opening port openId =>
      rw [hstate] at hr
      dsimp only
      cases matchesDevice with
      | true => exact hsame (.refl s) hr
      | false =>
        rw [if_neg Bool.false_ne_true]
        exact hfollow _ (Nat.le_succ _) rfl rfl hr
    | «open» port openId =>
      rw [hstate] at hr
      dsimp only
      cases matchesDevice with
      | true => exact hsame (.refl s) hr
      | false =>
        by_cases hbuffered : s.buffered > 0
        · rw [if_neg Bool.false_ne_true, if_pos hbuffered]
          refine hsame (Uncounted.callback ?_ nofun rfl trivial) ?_
          · exact .note rfl rfl rfl (fun _ h => h) (Or.inl hstate.symm)
          · exact hr.trans (decide_eq_false (Nat.ne_of_gt hbuffered))
        · rw [if_neg Bool.false_ne_true, if_neg hbuffered]
          refine hfollow _ (Nat.le_succ _) rfl rfl ?_
          exact hr.trans (decide_eq_true (Nat.eq_zero_of_not_pos hbuffered))
    | _ =>
      rw [hstate] at hr
      exact hfollow _ (Nat.le_succ _) rfl rfl hr

/-- What the port answers is mapped to the codes of a port's errors. -/
def isMapped : SupervisorEvent → Bool
  | .resume _ answer => answer.code? ≠ some .RECONNECT_EXHAUSTED
  | _ => true

/-- No method is disturbed, and nothing restarts the counter while the status callback of an
exhaustion runs. -/
def isCalm (config : ConnectionConfig) (w : Supervisor × AttemptRecord) (event : SupervisorEvent) :
    Bool :=
  w.1.isUndisturbed event && !(restarts config w.2 w.1 event && .exhausted ∈ w.1.stack)

theorem Counted.goOn {r : AttemptRecord} {stack : List Frame} (h : s.Counted config r)
    (hsound : s.Sound)
    (hlimit : ∀ limit, config.maxAttempts = some limit → 0 < limit)
    (hstack : s.stack = frame :: stack)
    (hundisturbed : s.isUndisturbed .returned = true)
    (hcalm : restarts config r s .returned = true → .exhausted ∉ s.stack) :
    (({ s with stack } : Supervisor).goOn config frame).Counted config
      (recordAttempts config s .returned
        (({ s with stack } : Supervisor).goOn config frame) r) := by
  obtain ⟨-, hc, hbegan, horder⟩ := hsound.returned hstack
  have hpopped : frame ≠ .exhausted → Uncounted s.generation s { s with stack } := .popped hstack
  have hle : ∀ g, frame.generation? = some g → g ≤ s.generation := fun g hg => (hc.le g hg).1
  unfold Supervisor.isUndisturbed at hundisturbed
  rw [hstack] at hundisturbed
  have hrestarts : restarts config r s .returned = frame.restartsCounter config r.openedAt
      s.monotonicNow := by
    unfold restarts
    rw [hstack]
    rfl
  have hcounts : s.countsFailure .returned = frame.countsFailure := by
    unfold countsFailure
    rw [hstack]
    rfl
  have hquiet : ∀ {s'}, s.countsFailure .returned = false →
      exhausts config s .returned s' = false := by
    intro s' hcounts
    unfold exhausts
    rw [hcounts]
    simp
  unfold Supervisor.goOn
  cases frame with
  | done => exact h.step_uncounted hsound.toBase (hpopped nofun) hrestarts (hquiet hcounts)
  | connecting g =>
    exact h.step_uncounted hsound.toBase ((hpopped nofun).findPort (hle g rfl)) hrestarts
      (hquiet hcounts)
  | openReported g openId | pushed g openId =>
    exact h.step_uncounted hsound.toBase ((hpopped nofun).wait hle) hrestarts (hquiet hcounts)
  | lossFlushed previous code next =>
    have hcode : code ≠ .RECONNECT_EXHAUSTED :=
      h.proper (.lossFlushed previous code next) (hstack ▸ List.mem_cons_self)
    obtain ⟨port, openId, rfl⟩ := hbegan
    exact h.step_uncounted hsound.toBase ((hpopped nofun).reportLoss rfl hcode next) hrestarts
      (hquiet hcounts)
  | lossReported previous next left =>
    obtain ⟨rfl, -⟩ : s.state = previous ∧ s.generation = left := by simpa using hundisturbed
    have hnil : stack = [] := horder.resolve_left id
    have hlost := (hpopped nofun).closeLost s.state .cancelling
    cases next with
    | giveUp =>
      dsimp only
      rw [afterLoss_giveUp]
      refine h.step_uncounted hsound.toBase hlost.giveUp (hrestarts.trans ?_) (hquiet hcounts)
      cases s.state <;> rfl
    | retry =>
      have hunderWay : s.state.isUnderWay = true :=
        h.proper (.lossReported s.state .retry left) (hstack ▸ List.mem_cons_self)
      obtain ⟨hstack₁, hreports₁, -, hbackoff₁, hnow₁⟩ := closeLost_fields
          { s with stack } s.state .cancelling
      dsimp only
      rw [afterLoss_retry]
      refine h.step_failed hsound.toBase hlost (hstack₁.trans hnil) hreports₁ hcounts
          (fun hreconnects => hrestarts.trans ?_)
        fun hreconnects => ?_
      · unfold Frame.restartsCounter
        rw [hreconnects]
        cases s.state <;> rfl
      · rw [hrestarts, hbackoff₁, hnow₁]
        cases hstate : s.state with
        | «open» port openId =>
          have hopened := h.opened (by rw [hstate]; rfl)
          rw [recordDisconnected_attempt_some hopened, ← h.made]
          unfold Frame.restartsCounter
          rw [hreconnects, Bool.true_and]
          exact if_congr decide_eq_true_iff.symm rfl rfl
        | listing | opening =>
          have hunopened := h.unopened (by rw [hstate]; rfl)
          rw [recordDisconnected_attempt_none hunopened, ← h.made]
          rfl
        | _ =>
          rw [hstate] at hunderWay
          exact nomatch hunderWay
  | listingReported left =>
    exact h.step_uncounted hsound.toBase (hpopped nofun).giveUp hrestarts (hquiet hcounts)
  | exhausted =>
    have hmem : .exhausted ∈ s.stack := hstack ▸ List.mem_cons_self
    have hnil : stack = [] := horder.resolve_left id
    have hbegins : s.begins
        (({ s with stack } : Supervisor).report .RECONNECT_EXHAUSTED .done) = false := by
      refine List.any_eq_false.mpr fun g hg hlt => ?_
      have hg : g ∈ s.attempts := by
        rcases List.mem_append.mp hg with hg | hg
        · exact List.mem_append_left _ hg
        · rw [hnil] at hg
          exact absurd hg List.not_mem_nil
      exact Nat.lt_irrefl _
        (Nat.lt_of_lt_of_le (of_decide_eq_true hlt) (hsound.toBase.attempts_le g hg))
    have hrecord : recordAttempts config s .returned
        (({ s with stack } : Supervisor).report .RECONNECT_EXHAUSTED .done) r =
        { r with reported := r.reported ++ [s.backoff.attempt] } := by
      rw [recordAttempts_quiet hbegins hrestarts (hquiet hcounts) fun hopened => hopened.1 rfl]
      exact congrArg (fun reported => { r with reported }) (if_pos rfl)
    have hexhausted := h.exhausted
    rw [if_pos hmem] at hexhausted
    rw [hrecord]
    refine ⟨h.made, h.bound, h.idle, h.room, h.opened, h.unopened, fun f hf => ?_,
      fun _ => h.exhausting hmem, ?_⟩
    · rw [hnil] at hf
      rw [List.mem_singleton.mp hf]
      trivial
    · rw [hnil, hexhausted, h.made]
      exact (List.append_nil _).symm
  | followFlushed previous left =>
    have hmem : ∀ f ∈ stack, f ∈ s.stack := fun f hf => hstack ▸ List.mem_cons_of_mem _ hf
    refine h.step_followNow hlimit (hcalm hrestarts) ?_ ?_ ?_ hrestarts hcounts previous
    · exact hmem
    · exact Nat.le_refl _
    · rfl
  | stopFlushed previous =>
    exact h.step_uncounted hsound.toBase ((hpopped nofun).stopNow previous) hrestarts
      (hquiet hcounts)
  | stopReported =>
    refine h.step_uncounted hsound.toBase ((hpopped nofun).same ?_ ?_ ?_ ?_ ?_) hrestarts
      (hquiet hcounts)
    all_goals rfl

theorem Uncounted.resumed (s : Supervisor) (task : Task) : Uncounted n s (s.resumed task) :=
  .note rfl rfl rfl (fun _ htask => List.mem_of_mem_erase htask) (Or.inl rfl)

/-- **A listing ends an attempt** without a port, or hands the port on. -/
theorem Counted.listed {r : AttemptRecord} (h : s.Counted config r) (hsound : s.Sound)
    (hstack : s.stack = [])
    (htask : .awaitListing generation ∈ s.tasks) (found : Option PortId) :
    ((s.resumed (.awaitListing generation)).listed config generation found).Counted config
      (recordAttempts config s (.resume (.awaitListing generation) (.found found))
        ((s.resumed (.awaitListing generation)).listed config generation found) r) := by
  obtain ⟨-, hc⟩ := hsound.resumed htask
  have hresumed := Uncounted.resumed (n := s.generation) s (.awaitListing generation)
  have hle : generation ≤ s.generation := (hc.le generation rfl).1
  have hquiet : ∀ {s'}, s'.state ≠ .failed ∨
      s.countsFailure (.resume (.awaitListing generation) (.found found)) = false →
      exhausts config s (.resume (.awaitListing generation) (.found found)) s' = false := by
    intro s' hs'
    unfold exhausts
    rcases hs' with hstate | hcounts
    · rw [decide_eq_false hstate, Bool.and_false]
    · rw [hcounts, Bool.and_false, Bool.false_and]
  have hsame : ∀ {s'}, Uncounted s.generation s s' →
      s'.state ≠ .failed ∨
        s.countsFailure (.resume (.awaitListing generation) (.found found)) = false →
      s'.Counted config
        (recordAttempts config s (.resume (.awaitListing generation) (.found found)) s' r) :=
        fun hsame hs' =>
    h.step_uncounted hsound.toBase hsame rfl (hquiet hs')
  generalize hs₁ : s.resumed (.awaitListing generation) = s₁ at hc hresumed ⊢
  have hfields : s₁.state = s.state ∧ s₁.stack = [] ∧ s₁.reports = s.reports ∧
      s₁.backoff = s.backoff ∧
      s₁.isStale generation = s.isStale generation := by
    subst hs₁
    exact ⟨rfl, hstack, rfl, rfl, rfl⟩
  obtain ⟨hstate₁, hstack₁, hreports₁, hbackoff₁, hstale₁⟩ := hfields
  unfold Supervisor.listed
  by_cases hstale : s₁.isStale generation = true
  · rw [if_pos hstale]
    refine hsame hresumed (Or.inr ?_)
    cases found with
    | none =>
      change (!s.isStale generation) = false
      rw [← hstale₁, hstale]
      rfl
    | some port => rfl
  rw [if_neg hstale]
  obtain ⟨-, -, -, hlisting⟩ := hc.of_not_stale hstale
  have hne : s₁.state ≠ .failed := by rw [hlisting]; nofun
  cases found with
  | some port => exact hsame (hresumed.wait fun g hg => Option.some.inj hg ▸ hle) (Or.inr rfl)
  | none =>
    dsimp only
    split
    · exact hsame (hresumed.listPorts hle) (Or.inl hne)
    split
    · refine h.step_failed hsound.toBase hresumed hstack₁ hreports₁ ?_ (fun _ => rfl) fun _ => ?_
      · change (!s.isStale generation) = true
        rw [← hstale₁, Bool.eq_false_iff.mpr hstale]
        rfl
      · rw [hbackoff₁, recordDisconnected_attempt_none
          (h.unopened (by rw [← hstate₁, hlisting]; rfl))]
        exact h.made
    · refine hsame (Uncounted.setStatus ?_ _) (Or.inl ?_)
      · exact ⟨hresumed.backoff, hresumed.reports, hresumed.exhausted, hresumed.proper,
          hresumed.attempts,
          Or.inr (Or.inr (Or.inr ⟨hstate₁ ▸ hlisting, Or.inl rfl⟩))⟩
      · rw [setStatus_state]
        nofun

/-- A connection that opens keeps the counter, and notes the time. -/
theorem Counted.startReading {r : AttemptRecord} {port : PortId} {isMissing : Bool}
    (h : s.Counted config r) (hsound : s.Sound)
    (htask : .openedPort generation port openId ∈ s.tasks) (hstale : s.isStale generation = false) :
    ((s.resumed (.openedPort generation port openId)).startReading generation port openId
      isMissing).Counted config
      (recordAttempts config s (.resume (.openedPort generation port openId) (.streams isMissing))
        ((s.resumed (.openedPort generation port openId)).startReading generation port openId
          isMissing) r) := by
  obtain ⟨-, hc⟩ := hsound.resumed htask
  have hresumed := Uncounted.resumed (n := s.generation) s (.openedPort generation port openId)
  have hle : generation ≤ s.generation := (hc.le generation rfl).1
  obtain ⟨-, -, -, hopening⟩ := hc.of_not_stale (Bool.eq_false_iff.mp hstale)
  have hopening : s.state = .opening port openId := hopening
  have hexhausts : ∀ s', exhausts config s
      (.resume (.openedPort generation port openId) (.streams isMissing)) s' = false := by
    intro s'
    unfold exhausts
    exact congrArg (· && decide (s'.state = .failed)) (Bool.and_false _)
  cases isMissing with
  | true =>
    refine h.step_uncounted hsound.toBase (hresumed.handleConnectionLoss ?_ (by decide) _) rfl
      (hexhausts _)
    change s.state.isUnderWay = true
    rw [hopening]
    rfl
  | false =>
    generalize hs₁ : ({ (s.resumed (.openedPort generation port openId)).lockStreams
        [.reader openId, .writer openId] with
      state := .open port openId, buffered := 0
      backoff := s.backoff.recordConnected s.monotonicNow } : Supervisor) = s₁
    have hfields : s₁.state = .open port openId ∧ s₁.reports = s.reports ∧ s₁.stack = s.stack ∧
        s₁.monotonicNow = s.monotonicNow ∧
        s₁.backoff = s.backoff.recordConnected s.monotonicNow := by
      subst hs₁
      exact ⟨rfl, rfl, rfl, rfl, rfl⟩
    obtain ⟨hstate₁, hreports₁, hstack₁, hnow₁, hbackoff₁⟩ := hfields
    have hnot : .exhausted ∉ s.stack := fun hmem => by
      rcases h.exhausting hmem with hstate | hstate
      · exact nomatch hopening.symm.trans hstate
      · exact nomatch hopening.symm.trans hstate
    have hcounted : s₁.Counted config { r with openedAt := s.monotonicNow } := by
      have hexhausted := h.exhausted
      rw [if_neg hnot] at hexhausted
      refine ⟨by rw [hbackoff₁]; exact h.made, h.bound, ?_, ?_, fun _ => by rw [hbackoff₁]; rfl, ?_,
        by rw [hstack₁]; exact h.proper, fun hmem => absurd (hstack₁ ▸ hmem) hnot,
        by rw [hstack₁, if_neg hnot]; exact hexhausted⟩
      · rw [hstate₁]
        nofun
      · rw [hstate₁]
        nofun
      · rw [hstate₁]
        nofun
    have hattempts : ∀ g ∈ s₁.attempts, g ≤ s.generation := by
      subst hs₁
      exact fun g hg => (hresumed.attempts g hg).elim (hsound.toBase.attempts_le g) id
    -- the callback of the status `open`, or the first read
    have hsame : Uncounted s.generation s₁
        ((s.resumed (.openedPort generation port openId)).startReading generation port
          openId false) := by
      unfold Supervisor.startReading
      rw [if_neg Bool.false_ne_true]
      dsimp only
      split
      · subst hs₁
        exact Uncounted.wait (.refl _) fun g hg => Option.some.inj hg ▸ hle
      · subst hs₁
        refine Uncounted.callback ?_ nofun rfl trivial
        exact .note rfl rfl rfl (fun _ h => h) (Or.inl rfl)
    have hfields : ((s.resumed (.openedPort generation port openId)).startReading generation port
        openId false).state =
        .open port openId ∧
        ((s.resumed (.openedPort generation port openId)).startReading generation port
          openId false).reports = s.reports ∧
        ((s.resumed (.openedPort generation port openId)).startReading generation port
          openId false).monotonicNow =
          s.monotonicNow := by
      unfold Supervisor.startReading
      rw [if_neg Bool.false_ne_true]
      dsimp only
      split
      · exact ⟨rfl, rfl, rfl⟩
      · exact ⟨rfl, rfl, rfl⟩
    generalize (s.resumed (.openedPort generation port openId)).startReading generation port openId
      false = s' at hsame hfields ⊢
    obtain ⟨hstate, hreports, hnow⟩ := hfields
    have hbegins : s.begins s' = false := by
      refine List.any_eq_false.mpr fun g hg hlt => ?_
      exact Nat.lt_irrefl _
        (Nat.lt_of_lt_of_le (of_decide_eq_true hlt) ((hsame.attempts g hg).elim (hattempts g) id))
    have hrecord : recordAttempts config s
        (.resume (.openedPort generation port openId) (.streams false)) s' r =
        { r with openedAt := s.monotonicNow } := by
      unfold recordAttempts
      rw [hbegins, hexhausts, hstate, hopening, hreports, hnow]
      simp [restarts, ConnectionState.isOpen]
    rw [hrecord]
    exact hcounted.of_uncounted hsame

/-- The function of an attempt that is current knows what is under way. -/
theorem isUnderWay_of_fits {state : ConnectionState}
    (hgeneration : task.generation? = some generation) (hfits : task.Fits state) :
    state.isUnderWay = true := by
  cases task with
  | awaitTeardown | awaitListing | foundPort | awaitOpen | openedPort =>
    rw [show state = _ from hfits]
    rfl
  | reading =>
    obtain ⟨port, hopen⟩ := hfits
    rw [hopen]
    rfl
  | _ => exact nomatch hgeneration

theorem Counted.resume {r : AttemptRecord} (h : s.Counted config r) (hsound : s.Sound)
    (hstack : s.stack = []) (htask : task ∈ s.tasks)
    (hmapped : answer.code? ≠ some .RECONNECT_EXHAUSTED)
    (hundisturbed : s.isUndisturbed (.resume task answer) = true)
    (hresume : (s.resumed task).resume config task answer = some s') :
    s'.Counted config (recordAttempts config s (.resume task answer) s' r) := by
  obtain ⟨-, hc⟩ := hsound.resumed htask
  have hresumed := Uncounted.resumed (n := s.generation) s task
  have hle : ∀ g, task.generation? = some g → g ≤ s.generation := fun g hg => (hc.le g hg).1
  have hunderWay : ∀ g, task.generation? = some g → ¬ (s.resumed task).isStale g = true →
      (s.resumed task).state.isUnderWay = true := by
    intro g hg hstale
    have hfits := Current.of_not_stale (hg ▸ hc) hstale
    exact isUnderWay_of_fits hg hfits.2.2.2
  have hcode : ∀ {code : SerialBrokerErrorCode}, answer.code? = some code →
      code ≠ .RECONNECT_EXHAUSTED := by
    rintro code hcode rfl
    exact hmapped hcode
  have hsame : Uncounted s.generation s s' → s.countsFailure (.resume task answer) = false →
      s'.Counted config (recordAttempts config s (.resume task answer) s' r) := by
    intro hsame hcounts
    refine h.step_uncounted hsound.toBase hsame ?_ ?_
    · rfl
    · unfold exhausts
      rw [hcounts, Bool.and_false, Bool.false_and]
  unfold Supervisor.resume at hresume
  split at hresume
  · obtain ⟨-, hresume⟩ := Option.ite_none_right_eq_some.mp hresume
    obtain rfl := Option.some.inj hresume
    refine hsame ?_ rfl
    split
    · exact hresumed
    · exact hresumed.listPorts (hle _ rfl)
  · exact Option.some.inj hresume ▸ h.listed hsound hstack htask _
  · obtain rfl := Option.some.inj hresume
    exact hsame (hresumed.listingFailed (hunderWay _ rfl) true) rfl
  · obtain rfl := Option.some.inj hresume
    exact hsame (hresumed.listingFailed (hunderWay _ rfl) false) rfl
  · rename_i g port
    obtain rfl := Option.some.inj hresume
    obtain ⟨-, -, -, hlisting⟩ :=
      hc.of_not_stale (Bool.eq_false_iff.mp (of_decide_eq_true hundisturbed))
    refine hsame (Uncounted.wait ?_ fun g' hg => Option.some.inj hg ▸ hle _ rfl) rfl
    exact .note rfl rfl rfl (fun _ htask => List.mem_of_mem_erase htask)
      (Or.inr (Or.inr (Or.inr ⟨hlisting, Or.inr ⟨port, _, rfl⟩⟩)))
  · obtain rfl := Option.some.inj hresume
    refine hsame ?_ rfl
    unfold openPortThrew
    dsimp only
    refine Uncounted.connectThrew ?_ ?_ (hcode rfl)
    · exact hresumed.same rfl rfl rfl rfl rfl
    · exact hunderWay _ rfl
  · obtain ⟨-, hresume⟩ := Option.ite_none_right_eq_some.mp hresume
    obtain rfl := Option.some.inj hresume
    refine hsame ?_ rfl
    unfold openSucceeded
    split
    · exact hresumed
    · exact hresumed.wait fun g hg => Option.some.inj hg ▸ hle _ rfl
  · obtain ⟨-, hresume⟩ := Option.ite_none_right_eq_some.mp hresume
    obtain rfl := Option.some.inj hresume
    exact hsame (hresumed.unlessStale (hunderWay _ rfl) (hcode rfl) _) rfl
  · obtain rfl := Option.some.inj hresume
    exact hsame (hresumed.unlessStale (hunderWay _ rfl) (by decide) _) rfl
  · exact Option.some.inj hresume ▸ h.startReading hsound htask (of_decide_eq_true hundisturbed)
  · obtain rfl := Option.some.inj hresume
    exact hsame (hresumed.unlessStale (hunderWay _ rfl) (hcode rfl) _) rfl
  · obtain rfl := Option.some.inj hresume
    refine hsame (Uncounted.connectThrew ?_ ?_ (hcode rfl)) rfl
    · exact hresumed.same rfl rfl rfl rfl rfl
    · exact hunderWay _ rfl
  · obtain rfl := Option.some.inj hresume
    exact hsame (hresumed.readChunk (hle _ rfl) _) rfl
  · obtain rfl := Option.some.inj hresume
    exact hsame (hresumed.unlessStale (hunderWay _ rfl) (by decide) _) rfl
  · obtain rfl := Option.some.inj hresume
    exact hsame (hresumed.unlessStale (hunderWay _ rfl) (hcode rfl) _) rfl
  · obtain rfl := Option.some.inj hresume
    refine hsame (Uncounted.wait ?_ nofun) rfl
    exact hresumed.same rfl rfl rfl rfl rfl
  · obtain ⟨-, hresume⟩ := Option.ite_none_right_eq_some.mp hresume
    obtain rfl := Option.some.inj hresume
    exact hsame (hresumed.wait nofun) rfl
  · obtain rfl := Option.some.inj hresume
    refine hsame ?_ rfl
    unfold stopEnd
    split
    · exact hresumed.same rfl rfl rfl rfl rfl
    · refine Uncounted.callback ?_ nofun rfl trivial
      exact hresumed.same rfl rfl rfl rfl rfl
  · exact nomatch hresume

/-- The reconnect timer's attempt, and the one a connect event makes of it. -/
theorem Counted.step_reconnect {r : AttemptRecord} {s₁ : Supervisor} {timer : TimerId}
    (h : s.Counted config r)
    (hstate : s.state = .reconnecting timer) (hsame : Uncounted s.generation s s₁)
    (hstate₁ : s₁.state = s.state)
    (hreports : s₁.reports = s.reports) (hstack : s₁.stack = [])
    (hle : s.generation ≤ s₁.generation)
    (hrestarts : restarts config r s event = false) (hcounts : s.countsFailure event = false) :
    s₁.connect.Counted config (recordAttempts config s event s₁.connect r) := by
  have hroom := h.room timer hstate
  refine Counted.step_connect r.made (h.of_uncounted hsame) hle hreports ?_ (fun limit hlimit => ?_)
    ?_ ?_ ?_ hcounts
  · rw [hstate₁, hstate]
    nofun
  · unfold BackoffState.hasExhausted at hroom
    rw [hlimit, h.made] at hroom
    exact Nat.lt_of_not_le (of_decide_eq_false hroom)
  · rw [hsame.backoff]
    exact h.unopened (by rw [hstate]; rfl)
  · rw [hstack]
    exact List.not_mem_nil
  · rw [if_neg (by rw [hrestarts]; nofun)]

theorem Counted.handleDeviceConnected {r : AttemptRecord} (h : s.Counted config r)
    (hsound : s.Sound) (hstack : s.stack = [])
    (hlimit : ∀ limit, config.maxAttempts = some limit → 0 < limit) :
    (s.handleDeviceConnected config).Counted config
      (recordAttempts config s .deviceConnected (s.handleDeviceConnected config) r) := by
  have hr : restarts config r s .deviceConnected =
    decide ((s.state = .failed ∧ config.autoReconnect = true) ∨ s.state = .awaitingPermission) :=
      rfl
  have hnot : .exhausted ∉ s.stack := by
    rw [hstack]
    exact List.not_mem_nil
  have hquiet : ∀ s', exhausts config s .deviceConnected s' = false := by
    intro s'
    unfold exhausts
    exact congrArg (· && decide (s'.state = .failed)) (Bool.and_false _)
  have hsame : ∀ {s'}, Uncounted s.generation s s' → restarts config r s .deviceConnected = false →
      s'.Counted config (recordAttempts config s .deviceConnected s' r) := fun hsame hrestarts =>
    h.step_uncounted hsound.toBase hsame hrestarts (hquiet _)
  have hagain : restarts config r s .deviceConnected = true → ({ s with
      foundPortDetached := false, backoff := .reset, state :=
          .idle } : Supervisor).connect.Counted config (recordAttempts config s
        .deviceConnected ({ s with
          foundPortDetached := false
          backoff := .reset
          state := .idle } : Supervisor).connect r) :=
    fun hrestarts => h.step_restart hlimit hnot (fun _ hmem => hmem) (Nat.le_refl _) rfl rfl rfl
      hrestarts rfl
  have hnote : Uncounted s.generation s { s with foundPortDetached := false } :=
    .note rfl rfl rfl (fun _ h => h) (Or.inl rfl)
  unfold Supervisor.handleDeviceConnected
  cases hstate : s.state with
  | reconnecting timer =>
    refine h.step_reconnect hstate ?_ hstate.symm rfl hstack (Nat.le_refl _) (hr.trans ?_) rfl
    · exact .note rfl rfl rfl (fun _ h => h) (Or.inl hstate.symm)
    · rw [hstate]
      rfl
  | failed =>
    cases hreconnects : config.autoReconnect with
    | false =>
      refine hsame ?_ (hr.trans ?_)
      · exact .note rfl rfl rfl (fun _ h => h) (Or.inl hstate.symm)
      · rw [hreconnects]
        exact decide_eq_false (by rw [hstate]; simp)
    | true => exact hagain (hr.trans (decide_eq_true (Or.inl ⟨hstate, hreconnects⟩)))
  | awaitingPermission => exact hagain (hr.trans (decide_eq_true (Or.inr hstate)))
  | _ =>
    refine hsame ?_ (hr.trans ?_)
    · exact .note rfl rfl rfl (fun _ h => h) (Or.inl hstate.symm)
    · rw [hstate]
      rfl

theorem Counted.handleDeviceDisconnected {r : AttemptRecord} (h : s.Counted config r)
    (hsound : s.Sound) (hstack : s.stack = [])
    (port : Option PortId) :
    (s.handleDeviceDisconnected config port).Counted config
      (recordAttempts config s (.deviceDisconnected port)
        (s.handleDeviceDisconnected config port) r) := by
  have hr : restarts config r s (.deviceDisconnected port) = false := rfl
  have hquiet : ∀ s', s'.state ≠ .failed ∨ s.state ≠ .awaitingPermission →
      exhausts config s (.deviceDisconnected port) s' = false := by
    intro s' hs'
    unfold exhausts
    rcases hs' with hstate | hstate
    · rw [decide_eq_false hstate, Bool.and_false]
    · rw [show s.countsFailure (.deviceDisconnected port) = false from decide_eq_false hstate,
        Bool.and_false, Bool.false_and]
  have hnote : Uncounted s.generation s { s with foundPortDetached := true } :=
    .note rfl rfl rfl (fun _ h => h) (Or.inl rfl)
  unfold Supervisor.handleDeviceDisconnected
  split
  · refine h.step_uncounted hsound.toBase (.refl s) hr (hquiet s ?_)
    by_cases hstate : s.state = .awaitingPermission
    · exact Or.inl (by rw [hstate]; nofun)
    · exact Or.inr hstate
  dsimp only
  split
  · rename_i hstate
    refine h.step_uncounted hsound.toBase (hnote.handleConnectionLoss ?_ (by decide) _) hr
      (hquiet _ (Or.inr ?_))
    · rw [hstate]
      rfl
    · rw [hstate]
      nofun
  · rename_i hstate
    refine h.step_uncounted hsound.toBase (hnote.handleConnectionLoss ?_ (by decide) _) hr
      (hquiet _ (Or.inr ?_))
    · rw [hstate]
      rfl
    · rw [hstate]
      nofun
  · rename_i hstate
    refine h.step_failed hsound.toBase hnote hstack rfl (decide_eq_true hstate) (fun _ => hr)
      fun _ => ?_
    rw [recordDisconnected_attempt_none (h.unopened (by rw [hstate]; rfl)), h.made]
    exact (if_neg (by rw [hr]; nofun)).symm
  · rename_i hstate
    exact h.step_uncounted hsound.toBase hnote hr (hquiet _ (Or.inr hstate))

theorem Counted.react {r : AttemptRecord} (h : s.Counted config r) (hsound : s.Sound)
    (hstack : s.stack = [])
    (hlimit : ∀ limit, config.maxAttempts = some limit → 0 < limit)
    (hmapped : isMapped event = true)
    (hundisturbed : s.isUndisturbed event = true) (hreact : s.react config event = some s') :
    s'.Counted config (recordAttempts config s event s' r) := by
  have hsame : Uncounted s.generation s s' → restarts config r s event = false →
      s.countsFailure event = false →
      s'.Counted config (recordAttempts config s event s' r) := by
    intro hsame hrestarts hcounts
    refine h.step_uncounted hsound.toBase hsame hrestarts ?_
    unfold exhausts
    rw [hcounts, Bool.and_false, Bool.false_and]
  unfold Supervisor.react at hreact
  split at hreact
  · obtain ⟨htask, hresume⟩ := Option.ite_none_right_eq_some.mp hreact
    exact h.resume hsound hstack htask (of_decide_eq_true hmapped) hundisturbed hresume
  · rename_i timer
    obtain ⟨htimer, hfired⟩ := Option.ite_none_right_eq_some.mp hreact
    obtain rfl := Option.some.inj hfired
    rw [hsound.timers] at htimer
    cases hstate : s.state with
    | reconnecting current =>
      have hfired : (s.clearTimer timer).timerFired = (s.clearTimer timer).connect := by
        unfold Supervisor.timerFired
        rw [show (s.clearTimer timer).state = .reconnecting current from hstate]
      rw [hfired]
      refine h.step_reconnect hstate ?_ rfl rfl hstack (Nat.le_refl _) rfl rfl
      exact .note rfl rfl rfl (fun _ h => h) (Or.inl rfl)
    | _ =>
      rw [hstate] at htimer
      exact absurd htimer List.not_mem_nil
  · obtain ⟨-, hflushed⟩ := Option.ite_none_right_eq_some.mp hreact
    obtain rfl := Option.some.inj hflushed
    refine hsame (Uncounted.callback ?_ nofun rfl trivial) rfl rfl
    exact .note rfl rfl rfl (fun _ h => h) (Or.inl rfl)
  · obtain rfl := Option.some.inj hreact
    refine hsame ?_ rfl rfl
    unfold writeFailed
    split
    · rename_i hstate
      split
      · exact Uncounted.handleConnectionLoss (.refl s) (by rw [hstate]; rfl) (by decide) _
      · exact .refl s
    · exact .refl s
  · exact Option.some.inj hreact ▸ h.handleDeviceConnected hsound hstack hlimit
  · exact Option.some.inj hreact ▸ h.handleDeviceDisconnected hsound hstack _
  · obtain ⟨-, hsettled⟩ := Option.ite_none_right_eq_some.mp hreact
    obtain rfl := Option.some.inj hsettled
    exact hsame (.note rfl rfl rfl (fun _ h => h) (Or.inl rfl)) rfl rfl
  · obtain ⟨close, -, hended⟩ := Option.bind_eq_some_iff.mp hreact
    obtain ⟨opens, locks, closes, rfl⟩ := closeStepEnded_eq hended
    exact hsame (.note rfl rfl rfl (fun _ h => h) (Or.inl rfl)) rfl rfl
  · split at hreact
    · obtain ⟨-, hforgotten⟩ := Option.ite_none_right_eq_some.mp hreact
      obtain rfl := Option.some.inj hforgotten
      exact hsame (.note rfl rfl rfl (fun _ h => h) (Or.inl rfl)) rfl rfl
    · exact nomatch hreact
  · obtain rfl := Option.some.inj hreact
    exact hsame (.note rfl rfl rfl (fun _ h => h) (Or.inl rfl)) rfl rfl
  · exact nomatch hreact
  · exact nomatch hreact

theorem Counted.step {r : AttemptRecord} (h : s.Counted config r) (hsound : s.Sound)
    (hlimit : ∀ limit, config.maxAttempts = some limit → 0 < limit)
    (hmapped : isMapped event = true)
    (hcalm : isCalm config (s, r) event = true) (hstep : s.step config event = some s') :
    s'.Counted config (recordAttempts config s event s' r) := by
  obtain ⟨hundisturbed, hrestarts⟩ := Bool.and_eq_true_iff.mp hcalm
  have hcalm : restarts config r s event = true → .exhausted ∉ s.stack := by
    intro hrestarted hmem
    rw [show restarts config (s, r).2 (s, r).1 event = true from hrestarted,
      decide_eq_true hmem] at hrestarts
    exact nomatch hrestarts
  unfold Supervisor.step at hstep
  split at hstep
  · exact Option.some.inj hstep ▸ h.perform hsound.toBase hlimit _ hcalm
  · split at hstep
    · exact nomatch hstep
    · rename_i frame stack hstack
      exact Option.some.inj hstep ▸ h.goOn hsound hlimit hstack hundisturbed hcalm
  · obtain ⟨hstack, hreact⟩ := Option.ite_none_right_eq_some.mp hstep
    exact h.react hsound hstack hlimit hmapped hundisturbed hreact

/-! ### every run -/

/-- The runs of a supervisor, with the record of its attempts. -/
def attemptRuns (config : ConnectionConfig) :
    TransitionSystem (Supervisor × AttemptRecord) SupervisorEvent :=
  (supervisorRuns config).observed .init (recordAttempts config)

theorem counted_of_run {es : List SupervisorEvent} {r : AttemptRecord}
    (hlimit : ∀ limit, config.maxAttempts = some limit → 0 < limit)
    (hmapped : ∀ e ∈ es, isMapped e = true)
    (hcalm : (attemptRuns config).Always (fun w e => isCalm config w e = true) es)
    (hrun : (attemptRuns config).run es = some (s, r)) : s.Sound ∧ s.Counted config r := by
  have hmapped : (attemptRuns config).Always (fun _ e => isMapped e = true) es :=
    TransitionSystem.always_of_mem hmapped
  exact TransitionSystem.run_invariant (P := fun w : Supervisor × AttemptRecord =>
      w.1.Sound ∧ w.1.Counted config w.2)
    ⟨init_sound, init_counted⟩ (fun w e w' h hcond hstep => by
      obtain ⟨hstep, hrecord⟩ := TransitionSystem.observed_step.mp hstep
      rw [hrecord]
      exact ⟨h.1.step (Bool.and_eq_true_iff.mp hcond.2).1 hstep,
        h.2.step h.1 hlimit hcond.1 hcond.2 hstep⟩)
    (hmapped.and hcalm) hrun

/-- **Attempts are counted exactly**, in every run in which no method is disturbed and nothing
restarts the counter while the status callback of an exhaustion runs. -/
theorem attempts_counted (config : ConnectionConfig)
    (hlimit : ∀ limit, config.maxAttempts = some limit → 0 < limit)
    (es : List SupervisorEvent) (s : Supervisor) (r : AttemptRecord)
    (hmapped : ∀ e ∈ es, isMapped e = true)
    (hcalm : (attemptRuns config).Always (fun w e => isCalm config w e = true) es)
    (hrun : (attemptRuns config).run es = some (s, r)) :
    (s.timers ≠ [] ↔ ∃ timer, s.state = .reconnecting timer) ∧ s.timers.length ≤ 1 ∧
      (s.chains.filter fun generation => !s.isStale generation).length ≤ 1 ∧
      s.backoff.attempt = r.made ∧ (∀ limit, config.maxAttempts = some limit → r.made ≤ limit) ∧
      r.exhausted = r.reported ++ if .exhausted ∈ s.stack then [r.made] else [] := by
  obtain ⟨hsound, hcounted⟩ := counted_of_run hlimit hmapped hcalm hrun
  refine ⟨?_, ?_, ?_, hcounted.made, hcounted.bound, hcounted.exhausted⟩
  · rw [hsound.timers]
    cases s.state <;> simp [ConnectionState.timers]
  · rw [hsound.timers]
    cases s.state <;> simp [ConnectionState.timers]
  · have hcurrent : (s.chains.filter fun generation => !s.isStale generation) ⊆ [s.generation] := by
      intro generation hmem
      obtain ⟨-, hstale⟩ := List.mem_filter.mp hmem
      rw [List.mem_singleton]
      have hnot : s.isStale generation = false := by simpa using hstale
      unfold isStale at hnot
      exact not_not.mp fun hne => of_decide_eq_false hnot (Or.inl fun heq => hne heq.symm)
    exact (List.subperm_of_subset (hsound.nodup.filter _) hcurrent).length_le

/-- The second of two attempts fails, and the application calls `retry()` from the status callback
`failed`. -/
def retryWhenFailed : List SupervisorEvent :=
  [.call (.start false), .returned, .resume (.awaitListing 1) (.found (some 5)),
    .resume (.foundPort 1 5) .done,
    .openSettled 0 false, .resume (.awaitOpen 1 5 0) (.openFailed .OPEN_FAILED), .returned,
    .returned, .closeStep 0 .rejected,
    .timer 0, .returned, .resume (.awaitTeardown 3 [0]) .done,
    .resume (.awaitListing 3) (.found (some 5)),
    .resume (.foundPort 3 5) .done, .openSettled 1 false,
    .resume (.awaitOpen 3 5 1) (.openFailed .OPEN_FAILED), .returned,
    .call .retry, .returned, .returned, .returned]

/-- The same without the call. -/
def twoAttempts : List SupervisorEvent :=
  [.call (.start false), .returned, .resume (.awaitListing 1) (.found (some 5)),
    .resume (.foundPort 1 5) .done,
    .openSettled 0 false, .resume (.awaitOpen 1 5 0) (.openFailed .OPEN_FAILED), .returned,
    .returned, .closeStep 0 .rejected,
    .timer 0, .returned, .resume (.awaitTeardown 3 [0]) .done,
    .resume (.awaitListing 3) (.found (some 5)),
    .resume (.foundPort 3 5) .done, .openSettled 1 false,
    .resume (.awaitOpen 3 5 1) (.openFailed .OPEN_FAILED), .returned,
    .returned, .returned]

theorem attempts_counted_twoAttempts :
    ∃ s r, (attemptRuns ⟨true, some 2, 1000, 0⟩).run twoAttempts = some (s, r) ∧ s.state = .failed ∧
      s.timers = [] ∧
      r.made = 2 ∧ r.reported = [2] ∧ r.exhausted = r.reported := by
  have hsome := (Option.any_eq_true _ _).mp
      (show ((attemptRuns ⟨true, some 2, 1000, 0⟩).run twoAttempts).any (fun w =>
    w.1.state = .failed ∧ w.1.stack = [] ∧ w.2.made = 2 ∧ w.2.reported = [2]) = true by decide)
  obtain ⟨⟨s, r⟩, hrun, hw⟩ := hsome
  obtain ⟨hstate, hstack, hmade, hreported⟩ := of_decide_eq_true hw
  have hcalm : (attemptRuns ⟨true, some 2, 1000, 0⟩).Always (fun w e =>
      isCalm ⟨true, some 2, 1000, 0⟩ w e = true) twoAttempts :=
    TransitionSystem.always_of_alwaysFrom (isCalm ⟨true, some 2, 1000, 0⟩) (by decide)
  have hlimit : ∀ limit, (some 2 : Option Nat) = some limit → 0 < limit := fun limit hlimit =>
    Option.some.inj hlimit ▸ Nat.zero_lt_two
  obtain ⟨htimers, -, -, -, -, hexhausted⟩ := attempts_counted _ hlimit _ s r (by decide) hcalm hrun
  refine ⟨s, r, hrun, hstate, ?_, hmade, hreported, ?_⟩
  · by_contra hne
    obtain ⟨timer, hreconnecting⟩ := htimers.mp hne
    exact nomatch hstate.symm.trans hreconnecting
  · rw [hexhausted, hstack, if_neg List.not_mem_nil, List.append_nil]

/-- `#recordFailedAttempt` reports the exhaustion of two attempts with the counter `retry()` has
restarted. -/
theorem not_attempts_counted :
    ¬ ∀ (config : ConnectionConfig) (es : List SupervisorEvent) (s : Supervisor)
    (r : AttemptRecord),
      (∀ limit, config.maxAttempts = some limit → 0 < limit) → (∀ e ∈ es, isMapped e = true) →
      (attemptRuns config).run es = some (s, r) →
        r.exhausted = r.reported ++ if .exhausted ∈ s.stack then [r.made] else [] := by
  intro h
  have hreports : ((attemptRuns ⟨true, some 2, 1000, 0⟩).run retryWhenFailed).any (fun w =>
      w.1.stack = [] ∧ w.2.exhausted = [2] ∧ w.2.reported = [1]) = true := by decide
  obtain ⟨w, hrun, hw⟩ := (Option.any_eq_true _ _).mp hreports
  obtain ⟨hstack, hexhausted, hreported⟩ := of_decide_eq_true hw
  have hlimit : ∀ limit, (some 2 : Option Nat) = some limit → 0 < limit := fun limit hlimit =>
    Option.some.inj hlimit ▸ Nat.zero_lt_two
  have hclaim := h _ _ w.1 w.2 hlimit (by decide) hrun
  rw [hstack, hexhausted, hreported, if_neg List.not_mem_nil] at hclaim
  exact absurd hclaim (by decide)

end Supervisor

end SerialBroker
