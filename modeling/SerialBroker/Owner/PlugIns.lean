import SerialBroker.Owner.PortSupervisorStopped

/-!
# No device plugged in is lost

A connect event makes the ports worth listing again. A resting supervisor starts an attempt for it,
and an attempt that lists the ports notes it and lists them once more if it finds none. An attempt
that fails in another way rests without a further listing, so the event is not lost as long as that
happens to no attempt after such an event. Whether one has come since the last listing began is a
record beside the supervisor.
-/

namespace SerialBroker

/-- The supervisor looks for a port, or has been told not to. -/
def ConnectionState.IsSought (config : ConnectionConfig) : ConnectionState → Prop
  | .listing | .opening .. => True
  | .failed => config.autoReconnect = false
  | _ => False

/-- The supervisor has a connection, or looks for none. -/
def ConnectionState.seeksNone : ConnectionState → Bool
  | .idle | .open .. | .stopped => true
  | _ => false

/-- The supervisor has come to rest without a connection. -/
def ConnectionState.isResting (config : ConnectionConfig) : ConnectionState → Bool
  | .awaitingPermission | .reconnecting _ => true
  | .failed => config.autoReconnect
  | _ => false

namespace Frame

/-- What is left of the method ends no attempt. -/
def IsHarmless : Frame → Prop
  | .lossFlushed .. | .lossReported .. | .listingReported _ => False
  | _ => True

/-- The listing an attempt begins once the status `connecting` is announced. -/
def IsConnecting : Frame → Prop
  | .connecting _ => True
  | _ => False

end Frame

/-- Whether the function goes on in this step. -/
def SupervisorEvent.resumes (event : SupervisorEvent) (task : Task) : Bool :=
  match event with
  | .resume resumed _ => resumed = task
  | _ => false

namespace Supervisor

variable {config : ConnectionConfig} {s s' s₁ : Supervisor} {task : Task} {frame : Frame}
  {generation : Generation}
  {answer : Answer} {event : SupervisorEvent} {openId : OpenId} {unlisted : Bool}

/-! ### the record -/

/-- Whether the current attempt lists the ports from this step on. -/
def listsAnew (s : Supervisor) (event : SupervisorEvent) (s' : Supervisor) : Bool :=
  .awaitListing s'.generation ∈ s'.tasks &&
    (!(.awaitListing s'.generation ∈ s.tasks) || event.resumes (.awaitListing s'.generation))

/-- Whether a connect event has come since the last listing began; one that comes while a port is
open concerns another device. -/
def recordPlugIn (s : Supervisor) (event : SupervisorEvent) (s' : Supervisor) (unlisted : Bool) :
    Bool :=
  !s.listsAnew event s' && !s'.state.seeksNone && (event = .deviceConnected || unlisted)

/-- The current attempt fails otherwise than by finding no port. -/
def failsUnlisted (s : Supervisor) : SupervisorEvent → Bool
  | .resume (.awaitListing generation) .listingTimedOut
  | .resume (.awaitListing generation) .listingRefused
  | .resume (.foundPort generation _) (.threw _)
  | .resume (.awaitOpen generation _ _) (.openFailed _)
  | .resume (.awaitOpen generation _ _) .openTimedOut
  | .resume (.openedPort generation _ _) (.threw _)
  | .resume (.openedPort generation _ _) (.writerThrew _)
  | .resume (.openedPort generation _ _) (.streams true) => !s.isStale generation
  | .deviceDisconnected port =>
    match s.state with
    | .opening .. => s.foundPort ≠ none ∧ (port = none ∨ port = s.foundPort)
    | _ => false
  | _ => false

/-- No method is disturbed, and no attempt fails otherwise than by finding no port once a connect
event has come since its listing began. -/
def isInformed (w : Supervisor × Bool) (event : SupervisorEvent) : Bool :=
  w.1.isUndisturbed event && !(w.2 && w.1.failsUnlisted event)

/-! ### while a connect event has not been listed for -/

structure Seeks (config : ConnectionConfig) (s : Supervisor) : Prop where
  frames : ∀ frame ∈ s.stack, frame.IsHarmless
  state : s.state.IsSought config
  noted : .awaitListing s.generation ∈ s.tasks →
    s.deviceConnectedWhileListing = true ∧ ∀ frame ∈ s.stack, ¬ frame.IsConnecting

/-- A listing of the current attempt that did not begin in the step was under way before. -/
theorem listing_of_not_listsAnew (hnot : s.listsAnew event s' = false)
    (htask : .awaitListing s'.generation ∈ s'.tasks) :
    .awaitListing s'.generation ∈ s.tasks ∧ event.resumes
    (.awaitListing s'.generation) = false := by
  unfold listsAnew at hnot
  rw [decide_eq_true htask, Bool.true_and, Bool.or_eq_false_iff] at hnot
  obtain ⟨hmem, hresumes⟩ := hnot
  refine ⟨of_decide_eq_true ?_, hresumes⟩
  simpa using hmem

/-- The attempt, and what has been noted for it, are left alone. -/
theorem Seeks.same (h : s.Seeks config) (hnot : s.listsAnew event s' = false)
    (hframes : ∀ frame ∈ s'.stack, frame ∈ s.stack ∨ (frame.IsHarmless ∧ ¬ frame.IsConnecting))
    (hstate : s'.state.IsSought config)
    (hnoted : s'.deviceConnectedWhileListing = s.deviceConnectedWhileListing)
    (hgeneration : s'.generation = s.generation) :
    s'.Seeks config where
  frames frame hframe := (hframes frame hframe).elim (h.frames frame) And.left
  state := hstate
  noted htask := by
    obtain ⟨hmem, -⟩ := listing_of_not_listsAnew hnot htask
    obtain ⟨hflag, hconnecting⟩ := h.noted (hgeneration ▸ hmem)
    exact ⟨hnoted.trans hflag, fun frame hframe =>
      (hframes frame hframe).elim (hconnecting frame) And.right⟩

/-- An attempt that begins has its listing before it. -/
theorem seeks_connect (hnot : s.listsAnew event s₁.connect = false) (hbase : s.Base)
    (hframes : ∀ frame ∈ s₁.stack, frame.IsHarmless) (hle : s.generation ≤ s₁.generation)
    (hstate : s₁.state ≠ .stopped) :
    s₁.connect.Seeks config := by
  obtain ⟨-, hlisting, -, hgeneration, hstack⟩ := connect_effect hstate
  refine ⟨fun frame hframe => ?_, ?_, fun htask => ?_⟩
  · rcases hstack with hstack | hstack
    · exact hframes frame (hstack ▸ hframe)
    · rw [hstack] at hframe
      rcases List.mem_cons.mp hframe with rfl | hframe
      · trivial
      · exact hframes frame hframe
  · rw [hlisting]
    trivial
  · obtain ⟨hmem, -⟩ := listing_of_not_listsAnew hnot htask
    have hle' := hbase.le _ (mem_chains.mpr (Or.inl ⟨_, hmem, rfl⟩))
    rw [hgeneration] at hle'
    exact absurd (Nat.le_trans hle' hle) (Nat.not_succ_le_self _)

theorem seeks_followNow {previous : ConnectionState}
    (hnot : s.listsAnew event (s₁.followNow previous) = false) (hbase : s.Base)
    (hframes : ∀ frame ∈ s₁.stack, frame.IsHarmless) (hle : s.generation ≤ s₁.generation) :
    (s₁.followNow previous).Seeks config := by
  rw [followNow_eq] at hnot ⊢
  refine seeks_connect hnot hbase ?_ ?_ nofun
  · unfold Supervisor.closeLost
    cases previous with
    | _ => exact hframes
  · unfold Supervisor.closeLost
    cases previous with
    | _ => exact hle

theorem Seeks.not_open (h : s.Seeks config) (port : PortId) (openId : OpenId) :
    s.state ≠ .open port openId := by
  intro hopen
  have hstate := h.state
  rw [hopen] at hstate
  exact hstate

theorem Seeks.not_stopped (h : s.Seeks config) : s.state ≠ .stopped := by
  intro hstopped
  have hstate := h.state
  rw [hstopped] at hstate
  exact hstate

theorem stop_state (hopen : ∀ port openId, s.state ≠ .open port openId) :
    s.stop = s ∨ s.stop.state = .stopped := by
  unfold Supervisor.stop
  split
  · exact Or.inl rfl
  dsimp only
  split
  · rename_i port openId hstate
    exact absurd hstate (hopen port openId)
  · refine Or.inr ?_
    unfold Supervisor.stopNow
    split
    all_goals rfl

theorem Seeks.perform (h : s.Seeks config) (hbase : s.Base) (call : SupervisorCall)
    (hnot : s.listsAnew (.call call) (s.perform call) = false)
    (hkeeps : (s.perform call).state.seeksNone = false) :
    (s.perform call).Seeks config := by
  have hagain : ∀ {timers}, s.listsAnew (.call call) ({ s with
      timers
      backoff := .reset
      state := .idle } : Supervisor).connect =
      false → ({ s with timers, backoff := .reset, state := .idle } : Supervisor).connect.Seeks
        config := fun hnot =>
    seeks_connect hnot hbase h.frames (Nat.le_refl _) nofun
  cases call with
  | start isFailed =>
    have hstart : s.start isFailed = s := by
      unfold Supervisor.start
      refine if_pos fun hidle => ?_
      have hstate := h.state
      rw [hidle] at hstate
      exact hstate
    change (s.start isFailed).Seeks config
    rw [hstart]
    exact h
  | stop =>
    change s.stop.Seeks config
    rcases stop_state h.not_open with hstop | hstop
    · rw [hstop]
      exact h
    · rw [show (s.perform .stop).state = .stopped from hstop] at hkeeps
      exact nomatch hkeeps
  | retry =>
    change s.listsAnew _ s.retry = false at hnot
    change s.retry.Seeks config
    unfold Supervisor.retry at hnot ⊢
    split at hnot
    · rename_i hstate
      rw [if_pos hstate]
      exact hagain hnot
    · rename_i hstate
      rw [if_neg hstate]
      exact h
  | useGrantedPort =>
    change s.listsAnew _ s.useGrantedPort = false at hnot
    change s.useGrantedPort.Seeks config
    unfold Supervisor.useGrantedPort at hnot ⊢
    cases hstate : s.state with
    | stopped | «open» | opening => exact h
    | _ =>
      rw [hstate] at hnot
      exact hagain hnot
  | followDevice matchesDevice =>
    change s.listsAnew _ (s.followDevice matchesDevice) = false at hnot
    change (s.followDevice matchesDevice).Seeks config
    unfold Supervisor.followDevice at hnot ⊢
    cases hstate : s.state with
    | stopped => exact absurd hstate h.not_stopped
    | «open» port openId => exact absurd hstate (h.not_open port openId)
    | opening port openId =>
      rw [hstate] at hnot
      cases matchesDevice with
      | true => exact h
      | false =>
        dsimp only at hnot ⊢
        rw [if_neg Bool.false_ne_true] at hnot ⊢
        exact seeks_followNow hnot hbase h.frames (Nat.le_succ _)
    | _ =>
      rw [hstate] at hnot
      dsimp only at hnot ⊢
      exact seeks_followNow hnot hbase h.frames (Nat.le_succ _)

theorem findPort_cases (s : Supervisor) (generation : Generation) :
    (∃ closes, s.findPort generation = s.wait (.awaitTeardown generation closes)) ∨
      s.findPort generation = s.listPorts generation := by
  unfold Supervisor.findPort
  split
  · exact Or.inl ⟨_, rfl⟩
  · exact Or.inr rfl

theorem Seeks.goOn {stack : List Frame} (h : s.Seeks config) (hsound : s.Sound)
    (hstack : s.stack = frame :: stack)
    (hundisturbed : s.isUndisturbed .returned = true)
    (hnot : s.listsAnew .returned (({ s with stack } : Supervisor).goOn config frame) = false)
    (hkeeps : (({ s with stack } : Supervisor).goOn config frame).state.seeksNone = false) :
    (({ s with stack } : Supervisor).goOn config frame).Seeks config := by
  obtain ⟨-, hc, hbegan, -⟩ := hsound.returned hstack
  have hself : frame ∈ s.stack := hstack ▸ List.mem_cons_self
  have hmem : ∀ f ∈ stack, f ∈ s.stack := fun f hf => hstack ▸ List.mem_cons_of_mem _ hf
  have hharmless := h.frames frame hself
  unfold Supervisor.isUndisturbed at hundisturbed
  rw [hstack] at hundisturbed
  unfold Supervisor.goOn at hnot hkeeps ⊢
  cases frame with
  | done | openReported | pushed | stopReported =>
    exact h.same hnot (fun f hf => Or.inl (hmem f hf)) h.state rfl rfl
  | exhausted =>
    refine h.same hnot (fun f hf => ?_) h.state rfl rfl
    rcases List.mem_cons.mp hf with rfl | hf
    · exact Or.inr ⟨trivial, id⟩
    · exact Or.inl (hmem f hf)
  | connecting g =>
    dsimp only at hnot ⊢
    rcases findPort_cases { s with stack } g with ⟨closes, hwait⟩ | hlist
    · rw [hwait] at hnot ⊢
      exact h.same hnot (fun f hf => Or.inl (hmem f hf)) h.state rfl rfl
    · -- a stale attempt's listing does not touch what is noted for the current one
      rw [hlist] at hnot ⊢
      refine ⟨fun f hf => h.frames f (hmem f hf), h.state, fun htask => ?_⟩
      obtain ⟨hbefore, -⟩ := listing_of_not_listsAnew hnot htask
      exact absurd trivial ((h.noted hbefore).2 _ hself)
  | lossFlushed | lossReported | listingReported => exact hharmless.elim
  | followFlushed previous left =>
    obtain ⟨hstate, -⟩ : s.state = previous ∧ s.generation = left := by simpa using hundisturbed
    obtain ⟨port, openId, rfl⟩ := hbegan
    exact absurd hstate (h.not_open port openId)
  | stopFlushed previous =>
    have hstopped : (({ s with stack } : Supervisor).stopNow previous).state = .stopped := by
      unfold Supervisor.stopNow
      cases previous <;> rfl
    rw [show _ = ConnectionState.stopped from hstopped] at hkeeps
    exact nomatch hkeeps

/-- A failure of an attempt that is not current has no consequence. -/
theorem stale_of_not_failsUnlisted (hfails : (!s.isStale generation) = false) :
    (s.resumed task).isStale generation = true := by
  have hstale : s.isStale generation = true := by simpa using hfails
  exact hstale

theorem Seeks.resume (h : s.Seeks config) (hsound : s.Sound) (htask : task ∈ s.tasks)
    (hundisturbed : s.isUndisturbed (.resume task answer) = true)
    (hfails : s.failsUnlisted (.resume task answer) = false)
    (hresume : (s.resumed task).resume config task answer = some s')
    (hnot : s.listsAnew (.resume task answer) s' = false) (hkeeps : s'.state.seeksNone = false) :
    s'.Seeks config := by
  obtain ⟨-, hc⟩ := hsound.resumed htask
  have hframes : ∀ {t : Supervisor}, t.stack = s.stack → ∀ f ∈ t.stack, f ∈ s.stack ∨
      (f.IsHarmless ∧ ¬ f.IsConnecting) :=
    fun hsame f hf => Or.inl (hsame ▸ hf)
  have hsame : ∀ {t : Supervisor}, t = s' → t.stack = s.stack → t.state.IsSought config →
      t.deviceConnectedWhileListing = s.deviceConnectedWhileListing → t.generation = s.generation →
        s'.Seeks config := by
    rintro t rfl hstack hstate hflag hgeneration
    exact h.same hnot (hframes hstack) hstate hflag hgeneration
  have hresumed : s.resumed task = s' → s'.Seeks config := fun heq => hsame heq rfl h.state rfl rfl
  -- a listing that begins is one of the current attempt
  have hlists : ∀ {g}, task.generation? = some g → ¬ (s.resumed task).isStale g = true →
      (s.resumed task).listPorts g = s' → False := by
    rintro g hg hstale rfl
    obtain ⟨hcurrent, hfresh, -, -⟩ := Current.of_not_stale (hg ▸ hc) hstale
    have hcurrent : g = s.generation := hcurrent
    obtain ⟨hbefore, hresumes⟩ := listing_of_not_listsAnew hnot
      (List.mem_append_right _ (List.mem_singleton.mpr (congrArg Task.awaitListing hcurrent.symm)))
    have hne : task ≠ .awaitListing s.generation := of_decide_eq_false hresumes
    have hrest : .awaitListing s.generation ∈ (s.resumed task).tasks :=
      (List.mem_erase_of_ne hne.symm).mpr hbefore
    exact hfresh (mem_chains.mpr (Or.inl ⟨_, hrest, rfl⟩))
  -- no port is read from
  have hreads : ∀ {g openId}, task = .reading g openId → (s.resumed task).isStale g = true := by
    rintro g openId rfl
    by_contra hstale
    obtain ⟨port, hopen⟩ := (hc.of_not_stale hstale).2.2.2
    exact h.not_open port openId hopen
  unfold Supervisor.resume at hresume
  split at hresume
  · obtain ⟨-, hresume⟩ := Option.ite_none_right_eq_some.mp hresume
    have hresume := Option.some.inj hresume
    split at hresume
    · exact hresumed hresume
    · rename_i hstale
      exact (hlists rfl hstale hresume).elim
  · rename_i g found
    have hresume := Option.some.inj hresume
    unfold Supervisor.listed at hresume
    split at hresume
    · exact hresumed hresume
    rename_i hstale
    obtain ⟨hcurrent, -, -, -⟩ := hc.of_not_stale hstale
    split at hresume
    · exact hsame hresume rfl h.state rfl rfl
    have hnoted : (s.resumed (.awaitListing g)).deviceConnectedWhileListing = true :=
      (h.noted (show .awaitListing s.generation ∈ s.tasks
        from (show g = s.generation from hcurrent) ▸ htask)).1
    rw [if_pos hnoted] at hresume
    exact (hlists rfl hstale hresume).elim
  · have hresume := Option.some.inj hresume
    unfold Supervisor.listingFailed at hresume
    rw [if_pos (stale_of_not_failsUnlisted hfails)] at hresume
    exact hresumed hresume
  · have hresume := Option.some.inj hresume
    unfold Supervisor.listingFailed at hresume
    rw [if_pos (stale_of_not_failsUnlisted hfails)] at hresume
    exact hresumed hresume
  · exact hsame (Option.some.inj hresume) rfl trivial rfl rfl
  · have hstale := of_decide_eq_true hundisturbed
    have hfails : (!s.isStale _) = false := hfails
    rw [hstale] at hfails
    exact nomatch hfails
  · obtain ⟨-, hresume⟩ := Option.ite_none_right_eq_some.mp hresume
    have hresume := Option.some.inj hresume
    unfold openSucceeded at hresume
    split at hresume
    · exact hresumed hresume
    · exact hsame hresume rfl h.state rfl rfl
  · obtain ⟨-, hresume⟩ := Option.ite_none_right_eq_some.mp hresume
    have hresume := Option.some.inj hresume
    unfold Supervisor.openFailed at hresume
    rw [if_pos (stale_of_not_failsUnlisted hfails)] at hresume
    exact hresumed hresume
  · have hresume := Option.some.inj hresume
    unfold Supervisor.openFailed at hresume
    rw [if_pos (stale_of_not_failsUnlisted hfails)] at hresume
    exact hresumed hresume
  · rename_i g port openId isMissing
    have hresume := Option.some.inj hresume
    cases isMissing with
    | true =>
      have hstale := of_decide_eq_true hundisturbed
      have hfails : (!s.isStale g) = false := hfails
      rw [hstale] at hfails
      exact nomatch hfails
    | false =>
      have hopen : s'.state = .open port openId := by
        rw [← hresume]
        unfold Supervisor.startReading
        rw [if_neg Bool.false_ne_true]
        dsimp only
        split
        · rfl
        · rfl
      rw [hopen] at hkeeps
      exact nomatch hkeeps
  · have hresume := Option.some.inj hresume
    unfold Supervisor.connectThrew at hresume
    rw [if_pos (stale_of_not_failsUnlisted hfails)] at hresume
    exact hresumed hresume
  · rename_i g port openId code
    have hresume := Option.some.inj hresume
    have hstale : ((s.resumed (.openedPort g port openId)).lockStreams
        [.reader openId]).isStale g = true :=
      @stale_of_not_failsUnlisted s (.openedPort g port openId) g hfails
    unfold Supervisor.connectThrew at hresume
    rw [if_pos hstale] at hresume
    exact hsame hresume rfl h.state rfl rfl
  · have hresume := Option.some.inj hresume
    unfold Supervisor.readChunk at hresume
    rw [if_pos (hreads rfl)] at hresume
    exact hresumed hresume
  · have hresume := Option.some.inj hresume
    unfold Supervisor.readEnded at hresume
    rw [if_pos (hreads rfl)] at hresume
    exact hresumed hresume
  · have hresume := Option.some.inj hresume
    unfold Supervisor.readEnded at hresume
    rw [if_pos (hreads rfl)] at hresume
    exact hresumed hresume
  · exact hsame (Option.some.inj hresume) rfl h.state rfl rfl
  · obtain ⟨-, hresume⟩ := Option.ite_none_right_eq_some.mp hresume
    exact hsame (Option.some.inj hresume) rfl h.state rfl rfl
  · have hresume := Option.some.inj hresume
    unfold stopEnd at hresume
    split at hresume
    · exact hsame hresume rfl h.state rfl rfl
    · subst hresume
      refine h.same hnot (fun f hf => ?_) h.state rfl rfl
      rcases List.mem_cons.mp hf with rfl | hf
      · exact Or.inr ⟨trivial, id⟩
      · exact Or.inl hf
  · exact nomatch hresume

/-- A listing under way is one of a supervisor that lists. -/
theorem listing_of_task (hsound : s.Sound) (htask : .awaitListing s.generation ∈ s.tasks) :
    s.state = .stopped ∨ s.state = .listing :=
  hsound.tasks _ htask rfl

theorem seeks_handleDeviceConnected (hsound : s.Sound) (hstack : s.stack = [])
    (hnot : s.listsAnew .deviceConnected (s.handleDeviceConnected config) = false)
    (hkeeps : (s.handleDeviceConnected config).state.seeksNone = false) :
    (s.handleDeviceConnected config).Seeks config := by
  have hframes : ∀ {t : Supervisor}, t.stack = s.stack → ∀ frame ∈ t.stack, frame.IsHarmless := by
    intro t hsame frame hframe
    rw [hsame, hstack] at hframe
    exact absurd hframe List.not_mem_nil
  have hrests : ∀ {t : Supervisor}, t.stack = s.stack → t.tasks = s.tasks →
      t.generation = s.generation → t.state = s.state →
      t.state.IsSought config → s.state ≠ .stopped → s.state ≠ .listing → t.Seeks config := by
    intro t hsame htasks hgeneration hstate hsought hstopped hlisting
    refine ⟨hframes hsame, hsought, fun htask => ?_⟩
    rw [htasks, hgeneration] at htask
    exact ((listing_of_task hsound htask).elim hstopped hlisting).elim
  have hconnect : ∀ {t : Supervisor}, s.listsAnew .deviceConnected t.connect = false →
      t.stack = s.stack →
      t.generation = s.generation → t.state ≠ .stopped → t.connect.Seeks config :=
        fun hnot hsame hgeneration hstate =>
    seeks_connect hnot hsound.toBase (hframes hsame) (Nat.le_of_eq hgeneration.symm) hstate
  unfold Supervisor.handleDeviceConnected at hnot hkeeps ⊢
  cases hstate : s.state with
  | listing =>
    refine ⟨hframes rfl, trivial, fun _ => ⟨rfl, fun frame hframe => ?_⟩⟩
    have hframe : frame ∈ s.stack := hframe
    rw [hstack] at hframe
    exact absurd hframe List.not_mem_nil
  | reconnecting timer =>
    rw [hstate] at hnot
    refine hconnect hnot rfl rfl ?_
    nofun
  | failed =>
    rw [hstate] at hnot
    cases hreconnects : config.autoReconnect with
    | false =>
      exact hrests rfl rfl rfl hstate.symm hreconnects (by rw [hstate]; nofun)
        (by rw [hstate]; nofun)
    | true =>
      rw [hreconnects] at hnot
      dsimp only at hnot ⊢
      rw [if_neg (fun h => Bool.noConfusion h)] at hnot ⊢
      refine hconnect hnot rfl rfl ?_
      nofun
  | awaitingPermission =>
    rw [hstate] at hnot
    refine hconnect hnot rfl rfl ?_
    nofun
  | opening port openId =>
    exact hrests rfl rfl rfl hstate.symm trivial (by rw [hstate]; nofun) (by rw [hstate]; nofun)
  | idle | «open» | stopped =>
    rw [hstate] at hkeeps
    exact nomatch hkeeps

theorem Seeks.handleDeviceDisconnected (h : s.Seeks config) (port : Option PortId)
    (hfails : s.failsUnlisted (.deviceDisconnected port) = false)
    (hnot : s.listsAnew (.deviceDisconnected port) (s.handleDeviceDisconnected
      config port) = false) :
    (s.handleDeviceDisconnected config port).Seeks config := by
  unfold Supervisor.handleDeviceDisconnected at hnot ⊢
  split
  · exact h
  rename_i hfound
  rw [if_neg hfound] at hnot
  cases hstate : s.state with
  | «open» port openId => exact absurd hstate (h.not_open port openId)
  | awaitingPermission =>
    have hsought := h.state
    rw [hstate] at hsought
    exact hsought.elim
  | opening port' openId =>
    unfold failsUnlisted at hfails
    rw [hstate] at hfails
    obtain ⟨hsome, hport⟩ := not_or.mp hfound
    refine absurd ⟨hsome, ?_⟩ (of_decide_eq_false hfails)
    by_cases hnone : port = none
    · exact Or.inl hnone
    · exact Or.inr (not_not.mp fun hne => hport ⟨hnone, hne⟩)
  | _ =>
    rw [hstate] at hnot
    refine h.same hnot (fun f hf => Or.inl hf) ?_ rfl rfl
    have hsought := h.state
    rw [hstate] at hsought
    exact hsought

theorem Seeks.react (h : s.Seeks config) (hsound : s.Sound)
    (hundisturbed : s.isUndisturbed event = true)
    (hfails : s.failsUnlisted event = false) (hevent : event ≠ .deviceConnected)
    (hreact : s.react config event = some s')
    (hnot : s.listsAnew event s' = false) (hkeeps : s'.state.seeksNone = false) :
    s'.Seeks config := by
  have hsame : ∀ {t : Supervisor}, t = s' → t.stack = s.stack → t.state = s.state →
      t.deviceConnectedWhileListing = s.deviceConnectedWhileListing → t.generation = s.generation →
        s'.Seeks config := by
    rintro t rfl hstack hstate hflag hgeneration
    exact h.same hnot (fun f hf => Or.inl (hstack ▸ hf)) (hstate ▸ h.state) hflag hgeneration
  unfold Supervisor.react at hreact
  split at hreact
  · obtain ⟨htask, hresume⟩ := Option.ite_none_right_eq_some.mp hreact
    exact h.resume hsound htask hundisturbed hfails hresume hnot hkeeps
  · obtain ⟨htimer, -⟩ := Option.ite_none_right_eq_some.mp hreact
    rw [hsound.timers] at htimer
    have hsought := h.state
    cases hstate : s.state with
    | reconnecting timer =>
      rw [hstate] at hsought
      exact hsought.elim
    | _ =>
      rw [hstate] at htimer
      exact absurd htimer List.not_mem_nil
  · obtain ⟨-, hflushed⟩ := Option.ite_none_right_eq_some.mp hreact
    obtain rfl := Option.some.inj hflushed
    refine h.same hnot (fun f hf => ?_) h.state rfl rfl
    rcases List.mem_cons.mp hf with rfl | hf
    · exact Or.inr ⟨trivial, id⟩
    · exact Or.inl hf
  · have hreact := Option.some.inj hreact
    unfold writeFailed at hreact
    split at hreact
    · rename_i port openId hopen
      exact absurd hopen (h.not_open port openId)
    · exact hsame hreact rfl rfl rfl rfl
  · exact absurd rfl hevent
  · obtain rfl := Option.some.inj hreact
    exact h.handleDeviceDisconnected _ hfails hnot
  · obtain ⟨-, hsettled⟩ := Option.ite_none_right_eq_some.mp hreact
    exact hsame (Option.some.inj hsettled) rfl rfl rfl rfl
  · obtain ⟨close, -, hended⟩ := Option.bind_eq_some_iff.mp hreact
    obtain ⟨opens, locks, closes, heq⟩ := closeStepEnded_eq hended
    exact hsame heq.symm rfl rfl rfl rfl
  · split at hreact
    · obtain ⟨-, hforgotten⟩ := Option.ite_none_right_eq_some.mp hreact
      exact hsame (Option.some.inj hforgotten) rfl rfl rfl rfl
    · exact nomatch hreact
  · exact hsame (Option.some.inj hreact) rfl rfl rfl rfl
  · exact nomatch hreact
  · exact nomatch hreact

/-! ### every run -/

/-- The runs of a supervisor, with whether a connect event has come since the last listing began. -/
def plugInRuns (config : ConnectionConfig) : TransitionSystem (Supervisor × Bool) SupervisorEvent :=
  (supervisorRuns config).observed false recordPlugIn

theorem seeks_step (h : unlisted = true → s.Seeks config) (hsound : s.Sound)
    (hinformed : isInformed (s, unlisted) event = true)
    (hstep : s.step config event = some s') (hrecord : recordPlugIn s event s' unlisted = true) :
    s'.Seeks config := by
  obtain ⟨hundisturbed, hfails⟩ := Bool.and_eq_true_iff.mp hinformed
  obtain ⟨hrecord, hevent⟩ := Bool.and_eq_true_iff.mp hrecord
  obtain ⟨hnot, hkeeps⟩ := Bool.and_eq_true_iff.mp hrecord
  have hnot : s.listsAnew event s' = false := by simpa using hnot
  have hkeeps : s'.state.seeksNone = false := by simpa using hkeeps
  by_cases hconnected : event = .deviceConnected
  · subst hconnected
    obtain ⟨hstack, hreact⟩ := Option.ite_none_right_eq_some.mp hstep
    obtain rfl := Option.some.inj hreact
    exact seeks_handleDeviceConnected hsound hstack hnot hkeeps
  rw [decide_eq_false hconnected, Bool.false_or] at hevent
  have h := h hevent
  have hfails : s.failsUnlisted event = false := by simpa [hevent] using hfails
  unfold Supervisor.step at hstep
  split at hstep
  · obtain rfl := Option.some.inj hstep
    exact h.perform hsound.toBase _ hnot hkeeps
  · split at hstep
    · exact nomatch hstep
    · rename_i frame stack hstack
      obtain rfl := Option.some.inj hstep
      exact h.goOn hsound hstack hundisturbed hnot hkeeps
  · exact h.react hsound hundisturbed hfails hconnected
      (Option.ite_none_right_eq_some.mp hstep).2 hnot hkeeps

theorem seeks_of_run {es : List SupervisorEvent}
    (hinformed : (plugInRuns config).Always (fun w e => isInformed w e = true) es)
    (hrun : (plugInRuns config).run es = some (s, unlisted)) : s.Sound ∧
      (unlisted = true → s.Seeks config) :=
  TransitionSystem.run_invariant (P := fun w : Supervisor × Bool =>
      w.1.Sound ∧ (w.2 = true → w.1.Seeks config))
    ⟨init_sound, fun hunlisted => Bool.noConfusion hunlisted⟩ (fun w e w' h hcond hstep => by
      obtain ⟨hstep, hrecord⟩ := TransitionSystem.observed_step.mp hstep
      rw [hrecord]
      exact ⟨h.1.step (Bool.and_eq_true_iff.mp hcond).1 hstep, seeks_step h.2 h.1 hcond hstep⟩)
        hinformed hrun

/-- **A supervisor does not rest before it has listed the ports again for the last connect event**,
and the attempt that lists them again is not counted twice, in every run in which no method is
disturbed and no attempt fails otherwise than by finding no port once such an event has come. -/
theorem no_plugIn_lost (config : ConnectionConfig) (es : List SupervisorEvent) (s : Supervisor)
    (unlisted : Bool)
    (hinformed : (plugInRuns config).Always (fun w e => isInformed w e = true) es)
    (hrun : (plugInRuns config).run es = some (s, unlisted)) :
    (s.state.isResting config = true → unlisted = false) ∧
      (unlisted = true → ∀ generation, s.stack = [] → .awaitListing generation ∈ s.tasks →
        s.isStale generation = false →
        ∃ s', s.step config (.resume (.awaitListing generation) (.found none)) = some s' ∧
          .awaitListing generation ∈ s'.tasks ∧
          s'.state = s.state ∧ s'.generation = s.generation ∧ s'.backoff = s.backoff) := by
  obtain ⟨hsound, hseeks⟩ := seeks_of_run hinformed hrun
  refine ⟨fun hresting => ?_, fun hunlisted generation hstack htask hstale => ?_⟩
  · cases unlisted with
    | false => rfl
    | true =>
      have hsought := (hseeks rfl).state
      cases hstate : s.state with
      | awaitingPermission | reconnecting =>
        rw [hstate] at hsought
        exact hsought.elim
      | failed =>
        rw [hstate] at hsought hresting
        exact nomatch (show config.autoReconnect = false from hsought).symm.trans hresting
      | _ =>
        rw [hstate] at hresting
        exact nomatch hresting
  · obtain ⟨hcurrent, -⟩ := not_or.mp (of_decide_eq_false hstale)
    have hcurrent : s.generation = generation := not_not.mp hcurrent
    have hnoted := ((hseeks hunlisted).noted (hcurrent ▸ htask)).1
    refine ⟨(s.resumed (.awaitListing generation)).listPorts generation, ?_, ?_, rfl, rfl, rfl⟩
    · change (if s.stack = [] then s.react config (.resume (.awaitListing generation) (.found none))
        else none) = _
      rw [if_pos hstack]
      change (if .awaitListing generation ∈ s.tasks then _ else none) = _
      rw [if_pos htask]
      refine congrArg some ?_
      change (s.resumed (.awaitListing generation)).listed config generation none = _
      unfold Supervisor.listed
      rw [show (s.resumed (.awaitListing generation)).isStale generation = false from hstale,
        if_neg Bool.false_ne_true]
      exact if_pos hnoted
    · exact List.mem_append_right _ (List.mem_singleton_self _)

/-- A device is plugged in while the ports are listed for the first attempt. -/
def pluggedInWhileListing : List SupervisorEvent :=
  [.call (.start false), .returned, .deviceConnected]

theorem no_plugIn_lost_pluggedInWhileListing :
    ∃ s, (plugInRuns ⟨true, some 1, 1000, 0⟩).run pluggedInWhileListing = some (s, true) ∧
      s.state.isResting ⟨true, some 1, 1000, 0⟩ = false ∧
      ∃ s', s.step ⟨true, some 1, 1000, 0⟩ (.resume (.awaitListing 1) (.found none)) = some s' ∧
        .awaitListing 1 ∈ s'.tasks ∧
        s'.backoff.attempt = 1 := by
  have hsome := (Option.any_eq_true _ _).mp
      (show ((plugInRuns ⟨true, some 1, 1000, 0⟩).run pluggedInWhileListing).any (fun w =>
    w.2 = true ∧ w.1.stack = [] ∧ .awaitListing 1 ∈ w.1.tasks ∧ w.1.isStale 1 = false ∧
      w.1.backoff.attempt = 1) = true by decide)
  obtain ⟨⟨s, unlisted⟩, hrun, hw⟩ := hsome
  obtain ⟨rfl, hstack, htask, hstale, hattempt⟩ := of_decide_eq_true hw
  have hinformed : (plugInRuns ⟨true, some 1, 1000, 0⟩).Always (fun w e =>
      isInformed w e = true) pluggedInWhileListing :=
    TransitionSystem.always_of_alwaysFrom isInformed (by decide)
  obtain ⟨hresting, hlists⟩ := no_plugIn_lost _ _ s true hinformed hrun
  obtain ⟨s', hstep, htask', -, -, hbackoff⟩ := hlists rfl 1 hstack htask hstale
  refine ⟨s, hrun, ?_, s', hstep, htask', by rw [hbackoff]; exact hattempt⟩
  exact Bool.eq_false_iff.mpr fun hrests => Bool.noConfusion (hresting hrests)

/-- A second device is plugged in while the first is being opened, which fails. -/
def pluggedInWhileOpening : List SupervisorEvent :=
  [.call (.start false), .returned, .resume (.awaitListing 1) (.found (some 5)),
    .resume (.foundPort 1 5) .done,
    .deviceConnected, .openSettled 0 false, .resume (.awaitOpen 1 5 0) (.openFailed .OPEN_FAILED),
    .returned, .returned, .returned]

/-- `handleDeviceConnected` notes nothing while a port is being opened, and the only attempt ends in
`failed`. -/
theorem plugIn_lost :
    ¬ ∀ (config : ConnectionConfig) (es : List SupervisorEvent) (s : Supervisor) (unlisted : Bool),
      (plugInRuns config).run es = some (s, unlisted) → s.state.isResting config = true →
      unlisted = false := by
  intro h
  have hrests : ((plugInRuns ⟨true, some 1, 1000, 0⟩).run pluggedInWhileOpening).any (fun w =>
      w.1.state.isResting ⟨true, some 1, 1000, 0⟩ = true ∧ w.1.stack = [] ∧
        w.2 = true) = true := by decide
  obtain ⟨w, hrun, hw⟩ := (Option.any_eq_true _ _).mp hrests
  obtain ⟨hresting, -, hunlisted⟩ := of_decide_eq_true hw
  exact Bool.noConfusion (hunlisted.symm.trans (h _ _ w.1 w.2 hrun hresting))

end Supervisor

end SerialBroker
