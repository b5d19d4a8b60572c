import SerialBroker.Owner.PortSupervisor

/-!
# An unplugged device is not a revoked permission

The platform does not list a port whose device is detached, so an attempt that finds no port has to
know whether the port it found last was unplugged. One flag carries that knowledge. It says so of
every port the platform has reported unplugged since it last reported one plugged in, as long as no
attempt goes on to open such a port: a listing may have been taken before the device went, and
`#open` clears the flag for the port it is given.
-/

namespace SerialBroker

namespace Supervisor

variable {config : ConnectionConfig} {s s' s'' : Supervisor} {generation : Generation}
  {openId : OpenId}
  {away : List PortId} {event : SupervisorEvent}

/-! ### what tells a detached port from a forgotten one -/

/-- What is known of the port found last stays as it is, and a wait for permission begins only where
it is not detached. -/
structure SameFound (s s' : Supervisor) : Prop where
  foundPort : s'.foundPort = s.foundPort
  foundPortDetached : s'.foundPortDetached = s.foundPortDetached
  waiting : s'.state = .awaitingPermission → s.state = .awaitingPermission ∨
    s.foundPortDetached = false

theorem SameFound.refl (s : Supervisor) : SameFound s s := ⟨rfl, rfl, Or.inl⟩

theorem SameFound.trans (h : SameFound s s') (h' : SameFound s' s'') : SameFound s s'' where
  foundPort := h'.foundPort.trans h.foundPort
  foundPortDetached := h'.foundPortDetached.trans h.foundPortDetached
  waiting hstate := by
    rcases h'.waiting hstate with hstate | hdetached
    · exact h.waiting hstate
    · exact Or.inr (h.foundPortDetached ▸ hdetached)

/-- The state is left alone, or is another one than waiting for permission. -/
theorem SameFound.of_state (hport : s'.foundPort = s.foundPort)
    (hdetached : s'.foundPortDetached = s.foundPortDetached)
    (hstate : s'.state = s.state ∨ s'.state ≠ .awaitingPermission) : SameFound s s' where
  foundPort := hport
  foundPortDetached := hdetached
  waiting hwaiting := by
    rcases hstate with hstate | hstate
    · exact Or.inl (hstate ▸ hwaiting)
    · exact absurd hwaiting hstate

theorem SameFound.setStatus (h : SameFound s s') (status : SerialBrokerStatus) :
    SameFound s (s'.setStatus status) := by
  unfold Supervisor.setStatus
  split
  · exact h
  · exact h.trans ⟨rfl, rfl, Or.inl⟩

theorem SameFound.findPort (h : SameFound s s') (generation : Generation) :
    SameFound s (s'.findPort generation) := by
  unfold Supervisor.findPort
  split
  · exact h.trans ⟨rfl, rfl, Or.inl⟩
  · exact h.trans ⟨rfl, rfl, Or.inl⟩

theorem SameFound.connect (h : SameFound s s') : SameFound s s'.connect := by
  unfold Supervisor.connect
  split
  · exact h
  dsimp only
  split
  · refine SameFound.findPort ?_ _
    exact h.trans (.of_state rfl rfl (Or.inr nofun))
  · exact h.trans (.of_state rfl rfl (Or.inr nofun))

theorem SameFound.giveUp (h : SameFound s s') : SameFound s s'.giveUp := by
  refine SameFound.setStatus ?_ _
  exact h.trans (.of_state rfl rfl (Or.inr nofun))

theorem SameFound.recordFailedAttempt (h : SameFound s s') :
    SameFound s (s'.recordFailedAttempt config) := by
  unfold Supervisor.recordFailedAttempt
  split
  · exact h.giveUp
  dsimp only
  split
  · split
    · exact h.trans (.of_state rfl rfl (Or.inr nofun))
    · exact h.trans (.of_state rfl rfl (Or.inr nofun))
  · refine SameFound.setStatus ?_ _
    exact h.trans (.of_state rfl rfl (Or.inr nofun))

theorem SameFound.handleConnectionLoss (h : SameFound s s') (code : SerialBrokerErrorCode)
    (next : AfterLoss) :
    SameFound s (s'.handleConnectionLoss code next) := by
  unfold Supervisor.handleConnectionLoss
  split
  · exact h
  · exact h
  · split
    · exact h.trans ⟨rfl, rfl, Or.inl⟩
    · exact h.trans ⟨rfl, rfl, Or.inl⟩
  · exact h.trans ⟨rfl, rfl, Or.inl⟩

/-- A close that begins is none of the port's concern. -/
theorem SameFound.closeLost (h : SameFound s s') (previous : ConnectionState) (step : CloseStep) :
    SameFound s (s'.closeLost previous step) := by
  unfold Supervisor.closeLost
  cases previous with
  | «open» | opening => exact h.trans ⟨rfl, rfl, Or.inl⟩
  | _ => exact h

theorem SameFound.afterLoss (h : SameFound s s') (previous : ConnectionState) (next : AfterLoss) :
    SameFound s (s'.afterLoss config previous next) := by
  have hlost := h.closeLost previous .cancelling
  cases next with
  | giveUp =>
    rw [afterLoss_giveUp]
    exact hlost.giveUp
  | retry =>
    rw [afterLoss_retry]
    exact hlost.recordFailedAttempt

theorem SameFound.followNow (h : SameFound s s') (previous : ConnectionState) :
    SameFound s (s'.followNow previous) := by
  have hlost := h.closeLost previous .draining
  rw [followNow_eq]
  exact SameFound.connect (hlost.trans (.of_state rfl rfl (Or.inr nofun)))

theorem SameFound.stopNow (h : SameFound s s') (previous : ConnectionState) :
    SameFound s (s'.stopNow previous) := by
  unfold Supervisor.stopNow
  cases previous with
  | _ => exact h.trans (.of_state rfl rfl (Or.inr nofun))

theorem SameFound.stop (h : SameFound s s') : SameFound s s'.stop := by
  unfold Supervisor.stop
  split
  · exact h
  have hnext : SameFound s { s' with generation := s'.generation + 1 } := h.trans ⟨rfl, rfl, Or.inl⟩
  dsimp only
  split
  · split
    · exact hnext.trans ⟨rfl, rfl, Or.inl⟩
    · exact hnext.stopNow _
  · exact hnext.stopNow _

/-- **The listing decides**: a wait for permission begins where the port found last is not
detached. -/
theorem SameFound.listed (h : SameFound s s') (found : Option PortId) :
    SameFound s (s'.listed config generation found) := by
  unfold Supervisor.listed
  split
  · exact h
  split
  · exact h.trans ⟨rfl, rfl, Or.inl⟩
  split
  · exact h.trans ⟨rfl, rfl, Or.inl⟩
  split
  · exact h.recordFailedAttempt
  · rename_i hdetached
    refine SameFound.setStatus ?_ _
    exact h.trans ⟨rfl, rfl, fun _ => Or.inr (Bool.eq_false_iff.mpr hdetached)⟩

theorem SameFound.listingFailed (h : SameFound s s') (isTimeout : Bool) :
    SameFound s (s'.listingFailed generation isTimeout) := by
  unfold Supervisor.listingFailed
  split
  · exact h
  split
  · exact h.handleConnectionLoss _ _
  · exact h.trans ⟨rfl, rfl, Or.inl⟩

theorem SameFound.unlessStale (h : SameFound s s') (code : SerialBrokerErrorCode)
    (next : AfterLoss) :
    SameFound s (if s'.isStale generation then s' else s'.handleConnectionLoss code next) := by
  split
  · exact h
  · exact h.handleConnectionLoss _ _

theorem SameFound.startReading (h : SameFound s s') (port : PortId) (isMissing : Bool) :
    SameFound s (s'.startReading generation port openId isMissing) := by
  unfold Supervisor.startReading
  split
  · exact h.handleConnectionLoss _ _
  dsimp only
  split
  · exact h.trans (.of_state rfl rfl (Or.inr nofun))
  · exact h.trans (.of_state rfl rfl (Or.inr nofun))

theorem SameFound.readChunk (h : SameFound s s') (bytes : Nat) :
    SameFound s (s'.readChunk config generation openId bytes) := by
  unfold Supervisor.readChunk
  split
  · exact h
  split
  · exact h.trans ⟨rfl, rfl, Or.inl⟩
  dsimp only
  split
  · exact h.trans ⟨rfl, rfl, Or.inl⟩
  · exact h.trans ⟨rfl, rfl, Or.inl⟩

/-! ### the ports that are away -/

/-- A listing without a port is a failed attempt while the port found last is detached. -/
theorem listed_of_detached (hstale : s.isStale generation = false)
    (hconnected : s.deviceConnectedWhileListing = false)
    (hdetached : s.foundPortDetached = true) :
    s.listed config generation none = s.recordFailedAttempt config := by
  unfold Supervisor.listed
  rw [if_neg (Bool.eq_false_iff.mp hstale)]
  dsimp only
  rw [if_neg (Bool.eq_false_iff.mp hconnected), if_pos hdetached]

/-- The ports the platform has reported unplugged since it last reported one plugged in; a `null`
target is the port found last. -/
def unplugged (s : Supervisor) (event : SupervisorEvent) (_ : Supervisor) (away : List PortId) :
    List PortId :=
  match event with
  | .deviceConnected => []
  | .deviceDisconnected (some port) => port :: away
  | .deviceDisconnected none => s.foundPort.toList ++ away
  | _ => away

/-- The flag says so of a port found last that is away, and no permission is waited for
meanwhile. -/
structure Noted (s : Supervisor) (away : List PortId) : Prop where
  detached : ∀ port, s.foundPort = some port → port ∈ away → s.foundPortDetached = true
  waiting : s.state = .awaitingPermission → s.foundPortDetached = false

theorem init_noted : init.Noted [] := ⟨fun _ _ h => absurd h List.not_mem_nil, nofun⟩

theorem Noted.of_same (h : s.Noted away) (hsame : SameFound s s') : s'.Noted away where
  detached port hport hmem := by
    rw [hsame.foundPortDetached]
    exact h.detached port (hsame.foundPort ▸ hport) hmem
  waiting hstate := by
    rw [hsame.foundPortDetached]
    rcases hsame.waiting hstate with hwaiting | hdetached
    · exact h.waiting hwaiting
    · exact hdetached

/-- Where the flag is cleared, the port found last must not be away. -/
theorem Noted.of_cleared (hsame : SameFound s s') (hdetached : s.foundPortDetached = false)
    (hport : ∀ port, s.foundPort = some port → port ∉ away) : s'.Noted away where
  detached port hfound hmem := absurd hmem (hport port (hsame.foundPort ▸ hfound))
  waiting _ := by rw [hsame.foundPortDetached, hdetached]

/-- A port that is forgotten is not waited for. -/
theorem Noted.of_forgotten (hsame : SameFound s s') (hport : s.foundPort = none)
    (hdetached : s.foundPortDetached = false) :
    s'.Noted away :=
  .of_cleared hsame hdetached fun _ hfound => nomatch hport.symm.trans hfound

theorem recordFailedAttempt_ne_awaitingPermission :
    (s.recordFailedAttempt config).state ≠ .awaitingPermission := by
  rw [recordFailedAttempt_state]
  split
  · nofun
  · nofun

theorem Noted.perform (h : s.Noted away) (call : SupervisorCall) : (s.perform call).Noted away := by
  have hagain : ∀ timers, SameFound s ({ s with
      timers
      backoff := .reset
      state := .idle } : Supervisor).connect :=
    fun _ => SameFound.connect (.of_state rfl rfl (Or.inr nofun))
  cases call with
  | start isFailed =>
    refine h.of_same ?_
    change SameFound s (s.start isFailed)
    unfold Supervisor.start
    split
    · exact .refl s
    split
    · refine SameFound.setStatus ?_ _
      exact .of_state rfl rfl (Or.inr nofun)
    · exact SameFound.connect (.refl s)
  | stop => exact h.of_same (SameFound.stop (.refl s))
  | retry =>
    refine h.of_same ?_
    change SameFound s s.retry
    unfold Supervisor.retry
    split
    · exact hagain s.timers
    · exact .refl s
  | useGrantedPort =>
    refine h.of_same ?_
    change SameFound s s.useGrantedPort
    unfold Supervisor.useGrantedPort
    split
    · exact .refl s
    · exact .refl s
    · exact .refl s
    · exact hagain _
    · exact hagain s.timers
  | followDevice matchesDevice =>
    change (s.followDevice matchesDevice).Noted away
    unfold Supervisor.followDevice
    split
    · exact h
    · split
      · exact h
      · exact .of_forgotten (SameFound.followNow (.refl _) _) rfl rfl
    · split
      · exact h
      · dsimp only
        split
        · exact .of_forgotten (.refl _) rfl rfl
        · exact .of_forgotten (SameFound.followNow (.refl _) _) rfl rfl
    · exact .of_forgotten (SameFound.followNow (.refl _) _) rfl rfl
    · exact .of_forgotten (SameFound.followNow (.refl _) _) rfl rfl

theorem SameFound.goOn (frame : Frame) : SameFound s (s.goOn config frame) := by
  have hsame := SameFound.refl s
  unfold Supervisor.goOn
  cases frame with
  | connecting generation => exact hsame.findPort generation
  | lossReported previous next left => exact hsame.afterLoss previous next
  | listingReported left => exact hsame.giveUp
  | followFlushed previous left => exact hsame.followNow previous
  | stopFlushed previous => exact hsame.stopNow previous
  | _ => exact ⟨rfl, rfl, Or.inl⟩

/-- A port that is opened becomes the one found last, and counts as attached. -/
theorem Noted.openPort {port : PortId} (hport : port ∉ away) :
    (s.openPort generation port).Noted away := by
  have hother : ∀ other, some port = some other → other ∉ away :=
    fun other hother => Option.some.inj hother ▸ hport
  exact .of_cleared (.refl _) rfl hother

theorem Noted.openPortThrew {port : PortId} (hport : port ∉ away) (code : SerialBrokerErrorCode) :
    (s.openPortThrew generation port code).Noted away := by
  have hother : ∀ other, some port = some other → other ∉ away :=
    fun other hother => Option.some.inj hother ▸ hport
  unfold Supervisor.openPortThrew
  exact .of_cleared (SameFound.unlessStale (.refl _) code _) rfl hother

/-- No attempt goes on to open a port that is away. -/
def OpensPresent (w : Supervisor × List PortId) : SupervisorEvent → Prop
  | .resume (.foundPort _ port) _ => port ∉ w.2
  | _ => True

instance (w : Supervisor × List PortId) (event : SupervisorEvent) :
    Decidable (OpensPresent w event) := by
  unfold OpensPresent
  split
  · exact inferInstance
  · exact inferInstance

theorem Noted.resume (h : s.Noted away) {task : Task} {answer : Answer}
    (hpresent : OpensPresent (s, away) (.resume task answer))
    (hresume :
      ({ s with tasks := s.tasks.erase task } : Supervisor).resume config task answer = some s') :
      s'.Noted away := by
  have hsame : SameFound s { s with tasks := s.tasks.erase task } := ⟨rfl, rfl, Or.inl⟩
  unfold Supervisor.resume at hresume
  split at hresume
  · obtain ⟨-, hresume⟩ := Option.ite_none_right_eq_some.mp hresume
    obtain rfl := Option.some.inj hresume
    split
    · exact h.of_same hsame
    · exact h.of_same (hsame.trans ⟨rfl, rfl, Or.inl⟩)
  · exact Option.some.inj hresume ▸ h.of_same (hsame.listed _)
  · exact Option.some.inj hresume ▸ h.of_same (hsame.listingFailed _)
  · exact Option.some.inj hresume ▸ h.of_same (hsame.listingFailed _)
  · exact Option.some.inj hresume ▸ Noted.openPort hpresent
  · exact Option.some.inj hresume ▸ Noted.openPortThrew hpresent _
  · obtain ⟨-, hresume⟩ := Option.ite_none_right_eq_some.mp hresume
    obtain rfl := Option.some.inj hresume
    unfold openSucceeded
    split
    · exact h.of_same hsame
    · exact h.of_same (hsame.trans ⟨rfl, rfl, Or.inl⟩)
  · obtain ⟨-, hresume⟩ := Option.ite_none_right_eq_some.mp hresume
    exact Option.some.inj hresume ▸ h.of_same (hsame.unlessStale _ _)
  · exact Option.some.inj hresume ▸ h.of_same (hsame.unlessStale _ _)
  · exact Option.some.inj hresume ▸ h.of_same (hsame.startReading _ _)
  · exact Option.some.inj hresume ▸ h.of_same (hsame.unlessStale _ _)
  · have hlocked : ∀ task locks, SameFound s
      (({ s with tasks := s.tasks.erase task } : Supervisor).lockStreams locks) :=
      fun _ _ => ⟨rfl, rfl, Or.inl⟩
    exact Option.some.inj hresume ▸ h.of_same ((hlocked _ _).unlessStale _ _)
  · exact Option.some.inj hresume ▸ h.of_same (hsame.readChunk _)
  · exact Option.some.inj hresume ▸ h.of_same (hsame.unlessStale _ _)
  · exact Option.some.inj hresume ▸ h.of_same (hsame.unlessStale _ _)
  · exact Option.some.inj hresume ▸ h.of_same (hsame.trans ⟨rfl, rfl, Or.inl⟩)
  · obtain ⟨-, hresume⟩ := Option.ite_none_right_eq_some.mp hresume
    exact Option.some.inj hresume ▸ h.of_same (hsame.trans ⟨rfl, rfl, Or.inl⟩)
  · obtain rfl := Option.some.inj hresume
    unfold stopEnd
    split
    · exact h.of_same (hsame.trans ⟨rfl, rfl, Or.inl⟩)
    · exact h.of_same (hsame.trans ⟨rfl, rfl, Or.inl⟩)
  · exact nomatch hresume

theorem handleDeviceConnected_noted : (s.handleDeviceConnected config).Noted [] := by
  have hnone : ∀ {s₁ s₂ : Supervisor}, SameFound s₁ s₂ → s₁.foundPortDetached = false →
      s₂.Noted [] :=
    fun hsame hdetached => .of_cleared hsame hdetached fun _ _ => List.not_mem_nil
  have hagain : ∀ s₁ : Supervisor, SameFound s₁ ({ s₁ with
      backoff := .reset
      state := .idle } : Supervisor).connect :=
    fun _ => SameFound.connect (.of_state rfl rfl (Or.inr nofun))
  unfold Supervisor.handleDeviceConnected
  dsimp only
  split
  · exact hnone (.refl _) rfl
  · exact hnone (SameFound.connect (.refl _)) rfl
  · split
    · exact hnone (.refl _) rfl
    · exact hnone (hagain { s with foundPortDetached := false }) rfl
  · exact hnone (hagain { s with foundPortDetached := false }) rfl
  · exact hnone (.refl _) rfl

theorem Noted.handleDeviceDisconnected (h : s.Noted away) (port : Option PortId) :
    (s.handleDeviceDisconnected config port).Noted
    (unplugged s (.deviceDisconnected port) s away) := by
  have hdetached : ∀ {s₁ s₂ : Supervisor} {away : List PortId}, SameFound s₁ s₂ →
      s₁.foundPortDetached = true →
      s₂.state ≠ .awaitingPermission → s₂.Noted away := fun hsame hdetached hstate =>
    ⟨fun _ _ _ => hsame.foundPortDetached.trans hdetached, fun hwaiting => absurd hwaiting hstate⟩
  unfold Supervisor.handleDeviceDisconnected
  split
  · rename_i hother
    refine ⟨fun found hfound hmem => ?_, h.waiting⟩
    obtain ⟨hport, hne⟩ := hother.resolve_left (by rw [hfound]; nofun)
    refine h.detached found hfound ?_
    cases port with
    | none => exact absurd rfl hport
    | some port =>
      rcases List.mem_cons.mp hmem with rfl | hmem
      · exact absurd hfound.symm hne
      · exact hmem
  dsimp only
  split
  · rename_i hopen
    refine hdetached (SameFound.handleConnectionLoss (.refl _) _ _) rfl ?_
    rw [handleConnectionLoss_state]
    exact fun hwaiting => nomatch hopen.symm.trans hwaiting
  · rename_i hopening
    refine hdetached (SameFound.handleConnectionLoss (.refl _) _ _) rfl ?_
    rw [handleConnectionLoss_state]
    exact fun hwaiting => nomatch hopening.symm.trans hwaiting
  · exact hdetached (SameFound.recordFailedAttempt (.refl _)) rfl
      recordFailedAttempt_ne_awaitingPermission
  · rename_i hwaiting
    exact hdetached (.refl _) rfl hwaiting

/-! ### every run -/

/-- The runs of a supervisor, with the ports that are away. -/
def plugRuns (config : ConnectionConfig) :
    TransitionSystem (Supervisor × List PortId) SupervisorEvent :=
  (supervisorRuns config).observed [] unplugged

theorem Noted.react (h : s.Noted away) (hpresent : OpensPresent (s, away) event)
    (hreact : s.react config event = some s') :
    s'.Noted (unplugged s event s' away) := by
  unfold Supervisor.react at hreact
  split at hreact
  · obtain ⟨-, hresume⟩ := Option.ite_none_right_eq_some.mp hreact
    exact h.resume hpresent hresume
  · rename_i timer
    obtain ⟨-, hfired⟩ := Option.ite_none_right_eq_some.mp hreact
    refine Option.some.inj hfired ▸ h.of_same ?_
    have hclear : SameFound s (s.clearTimer timer) := ⟨rfl, rfl, Or.inl⟩
    unfold timerFired
    split
    · exact hclear.connect
    · exact hclear
  · obtain ⟨-, hflushed⟩ := Option.ite_none_right_eq_some.mp hreact
    exact Option.some.inj hflushed ▸ h.of_same ⟨rfl, rfl, Or.inl⟩
  · refine Option.some.inj hreact ▸ h.of_same ?_
    unfold writeFailed
    split
    · split
      · exact SameFound.handleConnectionLoss (.refl s) _ _
      · exact .refl s
    · exact .refl s
  · exact Option.some.inj hreact ▸ handleDeviceConnected_noted
  · exact Option.some.inj hreact ▸ h.handleDeviceDisconnected _
  · obtain ⟨-, hsettled⟩ := Option.ite_none_right_eq_some.mp hreact
    exact Option.some.inj hsettled ▸ h.of_same ⟨rfl, rfl, Or.inl⟩
  · obtain ⟨close, -, hended⟩ := Option.bind_eq_some_iff.mp hreact
    obtain ⟨opens, locks, closes, rfl⟩ := closeStepEnded_eq hended
    exact h.of_same ⟨rfl, rfl, Or.inl⟩
  · split at hreact
    · obtain ⟨-, hforgotten⟩ := Option.ite_none_right_eq_some.mp hreact
      exact Option.some.inj hforgotten ▸ h.of_same ⟨rfl, rfl, Or.inl⟩
    · exact nomatch hreact
  · exact Option.some.inj hreact ▸ h.of_same ⟨rfl, rfl, Or.inl⟩
  · exact nomatch hreact
  · exact nomatch hreact

theorem Noted.step (h : s.Noted away) (hpresent : OpensPresent (s, away) event)
    (hstep : s.step config event = some s') :
    s'.Noted (unplugged s event s' away) := by
  unfold Supervisor.step at hstep
  split at hstep
  · exact Option.some.inj hstep ▸ h.perform _
  · split at hstep
    · exact nomatch hstep
    · rename_i frame stack hstack
      have hpopped : SameFound s { s with stack } := ⟨rfl, rfl, Or.inl⟩
      exact Option.some.inj hstep ▸ (h.of_same hpopped).of_same (.goOn frame)
  · exact h.react hpresent (Option.ite_none_right_eq_some.mp hstep).2

theorem noted_of_run {es : List SupervisorEvent}
    (hpresent : (plugRuns config).Always OpensPresent es)
    (hrun : (plugRuns config).run es = some (s, away)) : s.Noted away :=
  TransitionSystem.run_invariant (P := fun w : Supervisor × List PortId => w.1.Noted w.2) init_noted
    (fun w e w' h hpresent hstep => by
      obtain ⟨hstep, haway⟩ := TransitionSystem.observed_step.mp hstep
      rw [haway]
      exact h.step hpresent hstep) hpresent hrun

/-- **While the port found last is away, no permission is waited for**, and an attempt that finds no
port has failed, in every run in which no attempt goes on to open a port that is away. -/
theorem unplugged_not_taken_for_revoked (config : ConnectionConfig) (es : List SupervisorEvent)
    (s : Supervisor)
    (away : List PortId) (hpresent : (plugRuns config).Always OpensPresent es)
    (hrun : (plugRuns config).run es = some (s, away)) (port : PortId)
    (hfound : s.foundPort = some port) (haway : port ∈ away) :
    s.state ≠ .awaitingPermission ∧
      ∀ generation, s.stack = [] → .awaitListing generation ∈ s.tasks →
      s.isStale generation = false →
        s.deviceConnectedWhileListing = false → ∃ s', s.step config
        (.resume (.awaitListing generation) (.found none)) = some s' ∧
          s' = ({ s with tasks := s.tasks.erase (.awaitListing generation) } :
            Supervisor).recordFailedAttempt config ∧
          s'.state = if config.autoReconnect = false ∨
              (s.backoff.recordDisconnected s.monotonicNow config.stableAfterMs).hasExhausted
                config.maxAttempts = true
            then .failed else .reconnecting s.nextTimer := by
  have hnoted := noted_of_run hpresent hrun
  have hdetached := hnoted.detached port hfound haway
  refine ⟨fun hwaiting => Bool.noConfusion (hdetached.symm.trans (hnoted.waiting hwaiting)), ?_⟩
  intro generation hstack htask hstale hconnected
  refine ⟨_, ?_, rfl, recordFailedAttempt_state ..⟩
  change (if s.stack = [] then s.react config (.resume (.awaitListing generation) (.found none))
    else none) = _
  rw [if_pos hstack]
  change (if .awaitListing generation ∈ s.tasks then _ else none) = _
  rw [if_pos htask]
  exact congrArg some (listed_of_detached hstale hconnected hdetached)

/-- The device is unplugged while the ports are listed for the second attempt, which is given it all
the same. -/
def unpluggedWhileListing : List SupervisorEvent :=
  [.call (.start false), .returned, .resume (.awaitListing 1) (.found (some 5)),
    .resume (.foundPort 1 5) .done,
    .openSettled 0 false, .resume (.awaitOpen 1 5 0) (.openFailed .OPEN_FAILED), .returned,
    .returned, .closeStep 0 .rejected,
    .timer 0, .returned, .resume (.awaitTeardown 3 [0]) .done, .deviceDisconnected (some 5),
    .resume (.awaitListing 3) (.found (some 5)), .resume (.foundPort 3 5) .done,
    .openSettled 1 false,
    .resume (.awaitOpen 3 5 1) (.openFailed .OPEN_FAILED), .returned, .returned,
    .closeStep 1 .rejected,
    .timer 1, .returned, .resume (.awaitTeardown 5 [0, 1]) .done,
    .resume (.awaitListing 5) (.found none)]

/-- `#open` takes the device for attached again, and the third attempt waits for a permission. -/
theorem unplugged_taken_for_revoked :
    ¬ ∀ (config : ConnectionConfig) (es : List SupervisorEvent) (s : Supervisor)
    (away : List PortId),
      (plugRuns config).run es = some (s, away) → ∀ port, s.foundPort = some port → port ∈ away →
        s.state ≠ .awaitingPermission := by
  intro h
  have hwaits : ((plugRuns ⟨true, none, 1000, 0⟩).run unpluggedWhileListing).any (fun w =>
      w.1.foundPort = some 5 ∧ 5 ∈ w.2 ∧ w.1.state = .awaitingPermission) = true := by decide
  obtain ⟨w, hrun, hw⟩ := (Option.any_eq_true _ _).mp hwaits
  obtain ⟨hfound, haway, hwaiting⟩ := of_decide_eq_true hw
  exact h _ _ w.1 w.2 hrun 5 hfound haway hwaiting

/-- The device is unplugged while its connection is open, and is not found by the next attempt. -/
def unpluggedWhileOpen : List SupervisorEvent :=
  [.call (.start false), .returned, .resume (.awaitListing 1) (.found (some 5)),
    .resume (.foundPort 1 5) .done,
    .openSettled 0 true, .resume (.awaitOpen 1 5 0) .opened,
    .resume (.openedPort 1 5 0) (.streams false), .returned,
    .deviceDisconnected (some 5), .returned, .returned, .closeStep 0 .settled,
    .closeStep 0 .settled, .closeStep 0 .settled,
    .timer 0, .returned, .resume (.awaitTeardown 3 [0]) .done]

theorem unplugged_not_taken_for_revoked_unpluggedWhileOpen :
    ∃ s away, (plugRuns ⟨true, none, 1000, 0⟩).run unpluggedWhileOpen = some (s, away) ∧
      s.foundPort = some 5 ∧ 5 ∈ away ∧
      ∃ s', s.step ⟨true, none, 1000, 0⟩ (.resume (.awaitListing 3) (.found none)) = some s' ∧
        s'.state = .reconnecting 1 := by
  have hsome := (Option.any_eq_true _ _).mp
      (show ((plugRuns ⟨true, none, 1000, 0⟩).run unpluggedWhileOpen).any (fun w =>
    w.1.foundPort = some 5 ∧ 5 ∈ w.2 ∧ w.1.stack = [] ∧ .awaitListing 3 ∈ w.1.tasks ∧
      w.1.isStale 3 = false ∧
      w.1.deviceConnectedWhileListing = false ∧ w.1.nextTimer = 1) = true by decide)
  obtain ⟨⟨s, away⟩, hrun, hw⟩ := hsome
  obtain ⟨hfound, haway, hstack, htask, hstale, hconnected, htimer⟩ := of_decide_eq_true hw
  have hpresent : (plugRuns ⟨true, none, 1000, 0⟩).Always OpensPresent unpluggedWhileOpen :=
    TransitionSystem.AlwaysFrom.mono (fun _ _ h => of_decide_eq_true h)
      (TransitionSystem.always_of_alwaysFrom (fun w e => decide (OpensPresent w e)) (by decide))
  obtain ⟨-, hlisted⟩ := unplugged_not_taken_for_revoked _ _ s away hpresent hrun 5 hfound haway
  obtain ⟨s', hstep, -, hstate⟩ := hlisted 3 hstack htask hstale hconnected
  refine ⟨s, away, hrun, hfound, haway, s', hstep, ?_⟩
  rw [hstate, htimer]
  rfl

end Supervisor

end SerialBroker
