import SerialBroker.Owner.PortHands

/-!
# The connections of one supervisor do not overlap

A supervisor calls `open()` once every port it had before is closed, and delivers only what it read
on the connection that is open. Both hold in every run in which no method that goes on without
looking finds the supervisor changed by what it called back.
-/

namespace SerialBroker

/-- The frames of a method that has delivered what the buffer held, or found nothing in it. -/
def Frame.HasFlushed : Frame → Prop
  | .lossFlushed .. | .lossReported .. | .followFlushed .. | .stopFlushed _ => True
  | _ => False

namespace Supervisor

variable {config : ConnectionConfig} {s s' s'' s₀ : Supervisor} {task : Task} {frame : Frame}
  {generation : Generation}
  {answer : Answer} {event : SupervisorEvent} {openId : OpenId} {c c' : ConnectionRecord}

/-- What the record says of connections that do not overlap. -/
structure ConnectionsApart (s : Supervisor) (c : ConnectionRecord) : Prop where
  opens : c.overlapping = []
  newest : ∀ port openId, s.state = .open port openId →
    openId + 1 = s.opens.length ∧ c.opener = c.attempt
  delivered : c.late = []
  /-- What was opened is with one close sequence, or with the `stop()` that begins one, unless it is
  the connection of the state. -/
  closed : ∀ call ∈ s.opens, call.phase = .opened ∨ call.phase = .closed →
    s.tasks.count (.stopDraining call.id) +
      c.handed.count call.id = if s.state.openId? = some call.id then 0 else 1

/-! ### what the buffer holds -/

/-- The buffer is emptied, or stays with the connection it is of. -/
def KeepsBuffer (s s' : Supervisor) : Prop :=
  s'.buffered = 0 ∨ s'.state = s.state ∧ s'.buffered = s.buffered ∧
    ∀ frame ∈ s'.stack, frame.HasFlushed → frame ∈ s.stack

theorem KeepsBuffer.refl (s : Supervisor) : KeepsBuffer s s := Or.inr ⟨rfl, rfl, fun _ h _ => h⟩

/-- A loss takes what an open connection has in the buffer. -/
theorem keepsBuffer_loss {port : PortId} (hstate : s.state = .open port openId)
    (hpos : 0 < s.buffered) (code : SerialBrokerErrorCode)
    (next : AfterLoss) : KeepsBuffer s (s.handleConnectionLoss code next) := by
  unfold Supervisor.handleConnectionLoss
  rw [hstate]
  dsimp only
  rw [if_pos hpos]
  exact Or.inl rfl

theorem keepsBuffer_connectThrew {port : PortId} (hstate : s.state = .open port openId)
    (hpos : 0 < s.buffered)
    (code : SerialBrokerErrorCode) : KeepsBuffer s (s.connectThrew generation code) := by
  unfold Supervisor.connectThrew
  split
  · exact .refl s
  · exact keepsBuffer_loss hstate hpos _ _

theorem keepsBuffer_perform {port : PortId} (hstate : s.state = .open port openId)
    (hpos : 0 < s.buffered) (call : SupervisorCall) :
    KeepsBuffer s (s.perform call) := by
  have hsame := KeepsBuffer.refl s
  cases call with
  | start isFailed => simpa [Supervisor.perform, Supervisor.start, hstate] using hsame
  | stop =>
    simp only [Supervisor.perform, Supervisor.stop, hstate]
    split
    · exact hsame
    · exact Or.inl rfl
  | retry => simpa [Supervisor.perform, Supervisor.retry, hstate] using hsame
  | useGrantedPort => simpa [Supervisor.perform, Supervisor.useGrantedPort, hstate] using hsame
  | followDevice matchesDevice =>
    simp only [Supervisor.perform, Supervisor.followDevice, hstate]
    split
    · exact hsame
    · exact Or.inl rfl

theorem keepsBuffer_goOn {stack : List Frame} {port : PortId} (hstack : s.stack = frame :: stack)
    (hstate : s.state = .open port openId)
    (hframes : ∀ frame ∈ s.stack, ¬ frame.HasFlushed)
    (hundisturbed : s.isUndisturbed .returned = true) :
    KeepsBuffer s (({ s with stack } : Supervisor).goOn config frame) := by
  have hpopped : ∀ {s' : Supervisor}, s'.state = s.state → s'.buffered = s.buffered →
      s'.stack = stack → KeepsBuffer s s' :=
    fun hstate hbuffered hsame =>
      Or.inr ⟨hstate, hbuffered, fun f hf _ => hstack ▸ List.mem_cons_of_mem _ (hsame ▸ hf)⟩
  have hself : ¬ frame.HasFlushed := hframes frame (hstack ▸ List.mem_cons_self)
  unfold Supervisor.isUndisturbed at hundisturbed
  rw [hstack] at hundisturbed
  unfold Supervisor.goOn
  cases frame with
  | done => exact hpopped rfl rfl rfl
  | connecting g =>
    obtain ⟨hstate, -, hbuffered, hsame⟩ := findPort_effect (s := { s with stack }) g
    exact hpopped hstate hbuffered hsame
  | openReported g openId => exact hpopped rfl rfl rfl
  | pushed g openId => exact hpopped rfl rfl rfl
  | listingReported left =>
    obtain ⟨hlisting, -⟩ : s.state = .listing ∧ s.generation = left := by simpa using hundisturbed
    rw [hstate] at hlisting
    cases hlisting
  | exhausted =>
    refine Or.inr ⟨rfl, rfl, fun f hf hflushed => ?_⟩
    obtain rfl | hf := List.mem_cons.mp hf
    · exact absurd hflushed id
    · exact hstack ▸ List.mem_cons_of_mem _ hf
  | stopReported => exact hpopped rfl rfl rfl
  | lossFlushed | lossReported | followFlushed | stopFlushed => exact absurd trivial hself

theorem keepsBuffer_resume {port : PortId} (hsound : s.Sound) (htask : task ∈ s.tasks)
    (hstate : s.state = .open port openId)
    (hpos : 0 < s.buffered) (hundisturbed : s.isUndisturbed (.resume task answer) = true)
    (hchunk : (SupervisorEvent.resume task answer).chunk = [])
    (hresume : (s.resumed task).resume config task answer = some s') : KeepsBuffer s s' := by
  obtain ⟨-, hc⟩ := hsound.resumed htask
  have htaken : KeepsBuffer s (s.resumed task) := .refl s
  have hloss : ∀ {g : Generation} {code : SerialBrokerErrorCode}, KeepsBuffer s
      ((s.resumed task).connectThrew g code) :=
    keepsBuffer_connectThrew (s := s.resumed task) hstate hpos _
  have hends : ∀ {g : Generation} {code : SerialBrokerErrorCode}, KeepsBuffer s
      ((s.resumed task).readEnded g code) := by
    intro g code
    unfold Supervisor.readEnded
    split
    · exact htaken
    · exact keepsBuffer_loss (s := s.resumed task) hstate hpos _ _
  -- An attempt that lists or opens is not the one the state has open.
  have hnotListing : ∀ {g : Generation}, (s.resumed task).Current (some g) (· = .listing) →
      (s.resumed task).isStale g = true := by
    intro g hc
    by_contra hstale
    obtain ⟨-, -, -, hlisting⟩ := hc.of_not_stale hstale
    cases hstate.symm.trans hlisting
  unfold Supervisor.resume at hresume
  split at hresume
  · obtain ⟨-, hresume⟩ := Option.ite_none_right_eq_some.mp hresume
    obtain rfl := Option.some.inj hresume
    rw [if_pos (hnotListing hc)]
    exact htaken
  · obtain rfl := Option.some.inj hresume
    unfold Supervisor.listed
    rw [if_pos (hnotListing hc)]
    exact htaken
  · obtain rfl := Option.some.inj hresume
    unfold Supervisor.listingFailed
    rw [if_pos (hnotListing hc)]
    exact htaken
  · obtain rfl := Option.some.inj hresume
    unfold Supervisor.listingFailed
    rw [if_pos (hnotListing hc)]
    exact htaken
  · exact absurd (hnotListing hc) (Bool.eq_false_iff.mp (of_decide_eq_true hundisturbed))
  · exact absurd (hnotListing hc) (Bool.eq_false_iff.mp (of_decide_eq_true hundisturbed))
  · obtain ⟨-, hresume⟩ := Option.ite_none_right_eq_some.mp hresume
    obtain rfl := Option.some.inj hresume
    unfold Supervisor.openSucceeded
    split
    · exact htaken
    · exact .refl s
  · obtain ⟨-, hresume⟩ := Option.ite_none_right_eq_some.mp hresume
    exact Option.some.inj hresume ▸ hloss
  · exact Option.some.inj hresume ▸ hloss
  · obtain ⟨-, -, -, hopening⟩ :=
      hc.of_not_stale (Bool.eq_false_iff.mp (of_decide_eq_true hundisturbed))
    cases hstate.symm.trans hopening
  · exact Option.some.inj hresume ▸ hloss
  · exact Option.some.inj hresume ▸ keepsBuffer_connectThrew (s := (s.resumed _).lockStreams _)
      hstate hpos _
  · cases hchunk
  · exact Option.some.inj hresume ▸ hends
  · exact Option.some.inj hresume ▸ hends
  · exact Option.some.inj hresume ▸ .refl s
  · obtain ⟨-, hresume⟩ := Option.ite_none_right_eq_some.mp hresume
    exact Option.some.inj hresume ▸ .refl s
  · obtain rfl := Option.some.inj hresume
    unfold Supervisor.stopEnd
    split
    · exact .refl s
    · refine Or.inr ⟨rfl, rfl, fun f hf hflushed => ?_⟩
      obtain rfl | hf := List.mem_cons.mp hf
      · exact absurd hflushed id
      · exact hf
  · cases hresume

theorem keepsBuffer_react {port : PortId} (hsound : s.Sound) (hstate : s.state = .open port openId)
    (hpos : 0 < s.buffered)
    (hundisturbed : s.isUndisturbed event = true) (hchunk : event.chunk = [])
    (hreact : s.react config event = some s') :
    KeepsBuffer s s' := by
  have hsame : ∀ {s' : Supervisor}, s'.state = s.state → s'.buffered = s.buffered →
      s'.stack = s.stack → KeepsBuffer s s' :=
    fun hstate hbuffered hstack => Or.inr ⟨hstate, hbuffered, fun f hf _ => hstack ▸ hf⟩
  unfold Supervisor.react at hreact
  split at hreact
  · obtain ⟨htask, hresume⟩ := Option.ite_none_right_eq_some.mp hreact
    exact keepsBuffer_resume hsound htask hstate hpos hundisturbed hchunk hresume
  · obtain ⟨htimer, -⟩ := Option.ite_none_right_eq_some.mp hreact
    rw [hsound.timers, hstate] at htimer
    exact absurd htimer List.not_mem_nil
  · obtain ⟨-, hflushed⟩ := Option.ite_none_right_eq_some.mp hreact
    exact Option.some.inj hflushed ▸ Or.inl rfl
  · obtain rfl := Option.some.inj hreact
    unfold Supervisor.writeFailed
    rw [hstate]
    dsimp only
    split
    · exact keepsBuffer_loss hstate hpos _ _
    · exact .refl s
  · obtain rfl := Option.some.inj hreact
    simp only [Supervisor.handleDeviceConnected, hstate]
    exact hsame hstate.symm rfl rfl
  · obtain rfl := Option.some.inj hreact
    unfold Supervisor.handleDeviceDisconnected
    split
    · exact .refl s
    dsimp only
    split
    · exact keepsBuffer_loss (s := { s with foundPortDetached := true }) hstate hpos _ _
    · exact keepsBuffer_loss (s := { s with foundPortDetached := true }) hstate hpos _ _
    · next hwaiting => cases hstate.symm.trans hwaiting
    · exact hsame rfl rfl rfl
  · obtain ⟨-, hsettled⟩ := Option.ite_none_right_eq_some.mp hreact
    exact Option.some.inj hsettled ▸ hsame rfl rfl rfl
  · obtain ⟨closing, -, hended⟩ := Option.bind_eq_some_iff.mp hreact
    obtain ⟨opens, locks, closes, rfl⟩ := Supervisor.closeStepEnded_eq hended
    exact hsame rfl rfl rfl
  · split at hreact
    · obtain ⟨-, hforgotten⟩ := Option.ite_none_right_eq_some.mp hreact
      exact Option.some.inj hforgotten ▸ hsame rfl rfl rfl
    · cases hreact
  · exact Option.some.inj hreact ▸ hsame rfl rfl rfl
  · cases hreact
  · cases hreact

theorem keepsBuffer_step {port : PortId} (hsound : s.Sound) (hstate : s.state = .open port openId)
    (hpos : 0 < s.buffered)
    (hframes : ∀ frame ∈ s.stack, ¬ frame.HasFlushed) (hundisturbed : s.isUndisturbed event = true)
    (hchunk : event.chunk = [])
    (hstep : s.step config event = some s') : KeepsBuffer s s' := by
  unfold Supervisor.step at hstep
  split at hstep
  · exact Option.some.inj hstep ▸ keepsBuffer_perform hstate hpos _
  · split at hstep
    · cases hstep
    · next frame stack hstack =>
        exact Option.some.inj hstep ▸ keepsBuffer_goOn hstack hstate hframes hundisturbed
  · exact keepsBuffer_react hsound hstate hpos hundisturbed hchunk
      (Option.ite_none_right_eq_some.mp hstep).2

/-! ### every step -/

/-- What the record has of the buffer, and of what was delivered. -/
structure Delivered (s : Supervisor) (c : ConnectionRecord) : Prop where
  buffered : ∀ openId ∈ c.buffered, s.state.open? = some openId
  held : 0 < s.buffered → ∃ port openId, s.state = .open port openId
  flushed : 0 < s.buffered → ∀ frame ∈ s.stack, ¬ frame.HasFlushed
  empty : s.buffered = 0 → c.buffered = []
  late : c.late = []

/-- What holds of the supervisor and its record between two steps. -/
structure Recorded (s : Supervisor) (c : ConnectionRecord) : Prop extends Delivered s c where
  apart : Apart s c s
  attempt : s.state = .listing → c.attempt = s.generation
  overlapping : c.overlapping = []

theorem Recorded.delivers (h : s.Recorded c) (hsound : s.Sound)
    (hundisturbed : s.isUndisturbed event = true) (hchunk : event.chunk = [])
    (hstep : s.step config event = some s')
    (hempties : s'.buffered = s.buffered ∨ s'.buffered = 0) :
    s'.Delivered (c.observe s event s') := by
  have hlate : (c.buffered ++ event.chunk).filter (fun openId =>
      s.state.open? ≠ some openId) = [] := by
    rw [hchunk, List.append_nil]
    refine List.filter_eq_nil_iff.mpr fun openId hmem => ?_
    simp [h.buffered openId hmem]
  have hnotLate : (c.observe s event s').late = [] := by
    simp only [ConnectionRecord.observe, hlate, h.late, List.append_nil, ite_self]
  have hempty : s'.buffered = 0 → (c.observe s event s').buffered = [] := fun hzero => if_pos hzero
  have hnone : s'.buffered = 0 → s'.Delivered (c.observe s event s') := fun hzero => by
    have hpos : ¬ 0 < s'.buffered := by omega
    refine ⟨?_, fun h => absurd h hpos, fun h => absurd h hpos, hempty, hnotLate⟩
    rw [hempty hzero]
    exact fun _ hmem => absurd hmem List.not_mem_nil
  obtain hzero | hpos := Nat.eq_zero_or_pos s.buffered
  · exact hnone (by omega)
  obtain ⟨port, openId, hopen⟩ := h.held hpos
  obtain hzero | ⟨hstate, hbuffered, hframes⟩ :=
    keepsBuffer_step hsound hopen hpos (h.flushed hpos) hundisturbed hchunk hstep
  · exact hnone hzero
  have hsame : (c.observe s event s').buffered = c.buffered := by
    simp only [ConnectionRecord.observe, hbuffered, Nat.lt_irrefl, if_false,
      if_neg (Nat.ne_of_gt hpos)]
  refine ⟨?_, fun _ => ⟨port, openId, hstate.trans hopen⟩, fun _ frame hframe hflushed => ?_,
    hempty, hnotLate⟩
  · rw [hsame, hstate]
    exact h.buffered
  · exact h.flushed hpos frame (hframes frame hframe hflushed) hflushed

theorem Recorded.readChunk {bytes : ℕ} (h : s.Recorded c) (hsound : s.Sound) (hstack : s.stack = [])
    (htask : .reading generation openId ∈ s.tasks)
    (hs' : s' = (s.resumed (.reading generation openId)).readChunk config generation openId bytes) :
    s'.Delivered (c.observe s (.resume (.reading generation openId) (.chunk bytes)) s') := by
  obtain ⟨-, hc⟩ := hsound.resumed htask
  have hnoFrames : ∀ {n : ℕ}, 0 < n → ∀ frame ∈ s.stack, ¬ frame.HasFlushed :=
      fun _ frame hframe => by
    rw [hstack] at hframe
    exact absurd hframe List.not_mem_nil
  -- A chunk that changes neither the buffer nor the stack.
  have hsame : s'.state = s.state → s'.buffered = s.buffered → s'.stack = s.stack →
      s'.Delivered (c.observe s (.resume (.reading generation openId) (.chunk bytes)) s') := by
    intro hstate hbuffered hsame
    have hkept : (c.observe s (.resume (.reading generation openId) (.chunk bytes)) s').buffered
        = c.buffered := by
      simp only [ConnectionRecord.observe, hbuffered, Nat.lt_irrefl, if_false]
      split
      · next hzero => exact (h.empty hzero).symm
      · rfl
    refine ⟨?_, ?_, ?_, fun hzero => hkept.trans (h.empty (hbuffered ▸ hzero)), ?_⟩
    · rw [hkept, hstate]
      exact h.buffered
    · rw [hbuffered, hstate]
      exact h.held
    · rw [hsame]
      exact hnoFrames
    · simp only [ConnectionRecord.observe, hsame, Nat.lt_irrefl, false_and, if_false]
      exact h.late
  subst hs'
  unfold Supervisor.readChunk at hsame ⊢
  split
  · next hstale =>
    rw [if_pos hstale] at hsame
    exact hsame rfl rfl rfl
  next hstale =>
  rw [if_neg hstale] at hsame
  obtain ⟨-, -, -, port, hheld⟩ := hc.of_not_stale hstale
  have hheld : s.state = .open port openId := hheld
  have hopen : s.state.open? = some openId := by
    rw [hheld]
    rfl
  have hread : ∀ other ∈ c.buffered ++ [openId], s.state.open? = some other := by
    intro other hmem
    obtain hmem | hmem := List.mem_append.mp hmem
    · exact h.buffered other hmem
    · rw [List.mem_singleton.mp hmem]
      exact hopen
  split
  · next hnone =>
    rw [if_pos hnone] at hsame
    exact hsame rfl rfl rfl
  next hsome =>
  dsimp only
  have hlate : (c.buffered ++ [openId]).filter (fun other => s.state.open? ≠ some other) = [] := by
    refine List.filter_eq_nil_iff.mpr fun other hmem => ?_
    simp [hread other hmem]
  split
  · refine ⟨fun _ hmem => absurd hmem List.not_mem_nil, fun hpos => absurd hpos (Nat.lt_irrefl 0),
      fun hpos => absurd hpos (Nat.lt_irrefl 0), fun _ => rfl, ?_⟩
    simp only [ConnectionRecord.observe, SupervisorEvent.chunk, hlate, h.late,
      List.append_nil, ite_self]
  · have hgrows : s.buffered < s.buffered + bytes := by omega
    have hpos : s.buffered + bytes ≠ 0 := by omega
    refine ⟨?_, fun _ => ⟨port, openId, hheld⟩, hnoFrames, fun hzero => absurd hzero hpos, ?_⟩
    · simp only [ConnectionRecord.observe, Supervisor.wait, Supervisor.resumed, hgrows,
        if_true, if_neg hpos]
      exact hread
    · simp only [ConnectionRecord.observe, SupervisorEvent.chunk, hlate, h.late,
        List.append_nil, ite_self]

theorem Apart.rebase {s₁ : Supervisor} (h : Apart s₀ c s) (hopens : s₁.opens = s₀.opens)
    (hnext : s₁.nextClose = s₀.nextClose)
    (hbuffered : s₁.buffered = s₀.buffered) : Apart s₁ c s where
  length := by rw [hopens, h.length]
  once := by rw [hnext]; exact h.once
  begun := by rw [hopens]; exact h.begun
  newest := by rw [hopens]; exact h.newest
  known := h.known
  closeIds := h.closeIds
  base := by rw [hnext]; exact h.base
  covered := h.covered
  draining := h.draining
  cleared := h.cleared
  buffered := by rw [hbuffered]; exact h.buffered

/-- A call of `open()` that throws is one whose port nobody has. -/
theorem Apart.openThrew (h : Apart s c s) (hlists : s.state = .listing) (port : PortId) :
    Apart { s with
      foundPort := some port, foundPortDetached := false
      opens := s.opens ++ [OpenCall.mk s.opens.length port .failed s.hasStopped] } c { s with
      foundPort := some port, foundPortDetached := false
      opens := s.opens ++ [OpenCall.mk s.opens.length port .failed s.hasStopped] } :=
  { h with
    length := rfl
    begun := fun openId hmem => by
      rw [List.length_append]
      exact Nat.lt_add_right _ (h.begun openId hmem)
    newest := fun openId hid => by
      have hid : s.state.openId? = some openId := hid
      rw [hlists] at hid
      cases hid
    known := fun call hcall => by
      obtain hcall | hcall := List.mem_append.mp hcall
      · exact h.known call hcall
      · rw [List.mem_singleton.mp hcall]
        exact Or.inl rfl
    base := Nat.le_refl _
    buffered := Or.inl rfl }

/-- Where an attempt calls `open()`, every port there was before is closed, or out of time. -/
theorem Recorded.closed (h : s.Recorded c) (hsound : s.Sound) {port : PortId}
    (htask : .foundPort generation port ∈ s.tasks)
    (hlists : s.state = .listing) (hg : generation = s.generation) :
    s.closes = [] ∧ ∀ openId ∈ c.begun, openId ∈ c.handed := by
  refine ⟨h.apart.cleared _ htask (congrArg some hg) hlists, fun openId hmem => ?_⟩
  have hdraining : s.tasks.count (.stopDraining openId) = 0 := by
    refine List.count_eq_zero.mpr fun hmem => ?_
    cases hlists.symm.trans (hsound.stopped (h.apart.draining openId hmem))
  have honce := h.apart.once openId
  unfold holders at honce
  rw [handedSince_of_lt h.apart.closeIds, if_pos hmem, hdraining, hlists] at honce
  simp only [ConnectionState.openId?, reduceCtorEq, if_false, Nat.zero_add] at honce
  exact List.count_pos_iff.mp (by omega)

theorem Recorded.stepOpen (h : s.Recorded c) (hsound : s.Sound) {port : PortId}
    (hundisturbed : s.isUndisturbed (.resume (.foundPort generation port) answer) = true)
    (hstep : s.step config (.resume (.foundPort generation port) answer) = some s') :
    Apart s' (c.observe s (.resume (.foundPort generation port) answer) s') s' ∧
      (s'.buffered = s.buffered ∨ s'.buffered = 0) ∧
      s.closes = [] ∧ ∀ openId ∈ c.begun, openId ∈ c.handed := by
  obtain ⟨-, hreact⟩ := Option.ite_none_right_eq_some.mp hstep
  obtain ⟨htask, hresume⟩ := Option.ite_none_right_eq_some.mp hreact
  obtain ⟨hresumed, hc⟩ := hsound.resumed htask
  have hstale : s.isStale generation = false := of_decide_eq_true hundisturbed
  obtain ⟨hg, -, hnotStopped, hlists⟩ := hc.of_not_stale (Bool.eq_false_iff.mp hstale)
  have hlists : s.state = .listing := hlists
  have hg : generation = s.generation := hg
  refine and_assoc.mp ⟨?_, h.closed hsound htask hlists hg⟩
  have htaken : Apart s c (s.resumed (.foundPort generation port)) :=
    h.apart.resumed hsound.toBase fun _ heq => by cases heq
  have htaken : Apart (s.resumed (.foundPort generation port)) c
      (s.resumed (.foundPort generation port)) :=
    htaken.rebase rfl rfl rfl
  cases answer with
  | done =>
    obtain rfl := Option.some.inj hresume
    refine ⟨htaken.openPort hlists generation port ?_ (handedSince_of_lt h.apart.closeIds)
      ?_, Or.inl rfl⟩
    · simp [ConnectionRecord.observe, Supervisor.openPort, Supervisor.wait, Supervisor.resumed]
    · exact hg.trans (h.attempt hlists).symm
  | threw code =>
    obtain rfl := Option.some.inj hresume
    have hthrew := htaken.openThrew hlists port
    have hbase : ({ s.resumed (.foundPort generation port) with
        foundPort := some port, foundPortDetached := false
        opens := s.opens ++ [OpenCall.mk s.opens.length port .failed s.hasStopped] } :
          Supervisor).Base :=
      ⟨hresumed.stopped, hresumed.timers, hresumed.toBase.addOpen hnotStopped rfl, hresumed.le,
        hresumed.nodup, hresumed.began, hresumed.order, hresumed.held⟩
    obtain ⟨hquiet, hstate⟩ : Quiet ({ s.resumed (.foundPort generation port) with
        foundPort := some port, foundPortDetached := false
        opens := s.opens ++ [OpenCall.mk s.opens.length port .failed s.hasStopped] } : Supervisor)
          ((s.resumed (.foundPort generation port)).openPortThrew generation port code) ∧
        ((s.resumed (.foundPort generation port)).openPortThrew generation
          port code).state = s.state :=
      connectThrew_effect code
    have hopened : ((s.resumed (.foundPort generation port)).openPortThrew generation
      port code).opens =
      s.opens ++ [OpenCall.mk s.opens.length port .failed s.hasStopped] := hquiet.opens
    have hlisted : ((s.resumed (.foundPort generation port)).openPortThrew generation
      port code).state = .listing := hstate.trans hlists
    have hbegun : (c.observe s (.resume (.foundPort generation port) (.threw code))
        ((s.resumed (.foundPort generation port)).openPortThrew generation
          port code)).begun = c.begun := by
      simp [ConnectionRecord.observe, hopened]
    refine ⟨(hthrew.connectThrew hbase code).observed hbegun rfl fun openId hid => ?_,
      hquiet.buffered⟩
    · have hid : ((s.resumed (.foundPort generation port)).openPortThrew generation
        port code).state.openId? = some openId := hid
      rw [hlisted] at hid
      cases hid
  | _ => cases hresume

theorem SupervisorEvent.opener?_eq_some {event : SupervisorEvent}
    (h : event.opener? = some generation) :
    ∃ port answer, event = .resume (.foundPort generation port) answer := by
  unfold SupervisorEvent.opener? at h
  split at h
  · obtain rfl := Option.some.inj h
    exact ⟨_, _, rfl⟩
  · cases h

theorem SupervisorEvent.chunk_ne_nil {event : SupervisorEvent} (h : event.chunk ≠ []) :
    ∃ generation openId bytes, event = .resume (.reading generation openId) (.chunk bytes) := by
  unfold SupervisorEvent.chunk at h
  split at h
  · exact ⟨_, _, _, rfl⟩
  · exact absurd rfl h

/-- A step that calls no `open()` is recorded as what passed from hand to hand. -/
theorem Apart.recorded (h : Apart s₀ c s') (hopens : s₀.opens = s.opens)
    (hnext : s₀.nextClose = s.nextClose)
    (hopener : event.opener? = none) :
    Apart s' (c.observe s event s') s' ∧ (c.observe s event s').overlapping = c.overlapping := by
  have hlength : s'.opens.length = s.opens.length := by rw [h.length, hopens]
  refine ⟨h.observed ?_ ?_ fun openId hid => ⟨?_, ?_⟩, ?_⟩
  · simp only [ConnectionRecord.observe, List.drop_eq_nil_of_le (Nat.le_of_eq hlength),
      List.filter_nil, List.map_nil, List.append_nil]
  · simp only [ConnectionRecord.observe, hnext]
  · simp only [ConnectionRecord.observe, hopener, Option.getD_none]
  · refine if_neg fun hlists => ?_
    rw [hlists] at hid
    cases hid
  · exact if_neg fun hgrows => Nat.ne_of_gt hgrows.1 hlength

theorem Recorded.step (h : s.Recorded c) (hsound : s.Sound)
    (hkeeps : s.keepsConnection event = true)
    (hstep : s.step config event = some s') : s'.Recorded (c.observe s event s') := by
  have hundisturbed : s.isUndisturbed event = true := (Bool.and_eq_true_iff.mp hkeeps).1
  have hattempt : s'.state = .listing → (c.observe s event s').attempt = s'.generation :=
    fun hlists => if_pos hlists
  cases hopener : event.opener? with
  | some generation =>
    obtain ⟨port, answer, rfl⟩ := SupervisorEvent.opener?_eq_some hopener
    obtain ⟨hapart, hempties, hclosed⟩ := h.stepOpen hsound hundisturbed hstep
    refine ⟨h.delivers hsound hundisturbed rfl hstep hempties, hapart, hattempt, ?_⟩
    exact (if_neg fun hopens => hopens.2 hclosed).trans h.overlapping
  | none =>
    by_cases hchunk : event.chunk = []
    · have hrest := h.apart.stepRest hsound hkeeps hopener hchunk hstep
      have hrecorded : Apart s' (c.observe s event s') s' ∧
          (c.observe s event s').overlapping = c.overlapping :=
        hrest.recorded rfl rfl hopener
      obtain ⟨hapart, hoverlapping⟩ := hrecorded
      exact ⟨h.delivers hsound hundisturbed hchunk hstep hrest.buffered, hapart, hattempt,
        hoverlapping.trans h.overlapping⟩
    · obtain ⟨g, openId, bytes, rfl⟩ := SupervisorEvent.chunk_ne_nil hchunk
      obtain ⟨hstack, hreact⟩ := Option.ite_none_right_eq_some.mp hstep
      obtain ⟨htask, hread⟩ := Option.ite_none_right_eq_some.mp hreact
      have htaken : Apart s c (s.resumed (.reading g openId)) :=
        h.apart.resumed hsound.toBase fun _ heq => by cases heq
      have hapart : ∃ buffered, Apart
          { s with buffered } c ((s.resumed (.reading g openId)).readChunk config g openId bytes) :=
        htaken.readChunk (hsound.resumed htask).1.toBase bytes
      obtain ⟨buffered, hapart⟩ := hapart
      have hs' : (s.resumed (.reading g openId)).readChunk config g openId bytes = s' :=
        Option.some.inj hread
      rw [hs'] at hapart
      have hrecorded : Apart s' (c.observe s (.resume (.reading g openId) (.chunk bytes)) s') s' ∧
          (c.observe s (.resume (.reading g openId) (.chunk bytes)) s').overlapping
            = c.overlapping := hapart.recorded rfl rfl rfl
      obtain ⟨hapart, hoverlapping⟩ := hrecorded
      exact ⟨h.readChunk hsound hstack htask hs'.symm, hapart, hattempt,
        hoverlapping.trans h.overlapping⟩

/-! ### every run -/

theorem init_recorded : init.Recorded .init where
  buffered _ hmem := absurd hmem List.not_mem_nil
  held hpos := absurd hpos (Nat.lt_irrefl 0)
  flushed hpos := absurd hpos (Nat.lt_irrefl 0)
  empty _ := rfl
  late := rfl
  apart := init_apart
  attempt hlists := by cases hlists
  overlapping := rfl

/-- What was opened has one holder, and the state is one of the two there may be. -/
theorem Recorded.connectionsApart (h : s.Recorded c) : s.ConnectionsApart c where
  opens := h.overlapping
  newest port openId hopen := by
    refine h.apart.newest openId ?_
    rw [hopen]
    rfl
  delivered := h.late
  closed call hcall hphase := by
    have hbegun : call.id ∈ c.begun := by
      refine (h.apart.known call hcall).resolve_left fun hfailed => ?_
      rw [hfailed] at hphase
      obtain hphase | hphase := hphase
      · cases hphase
      · cases hphase
    have honce := h.apart.once call.id
    unfold holders at honce
    rw [handedSince_of_lt h.apart.closeIds, if_pos hbegun] at honce
    split at honce
    · next hstate =>
      rw [if_pos hstate]
      omega
    · next hstate =>
      rw [if_neg hstate]
      omega

/-- **The connections of one supervisor do not overlap**, in every run in which a method that goes
on without looking finds the connection it left. -/
theorem connections_apart (config : ConnectionConfig) (es : List SupervisorEvent) (s : Supervisor)
    (c : ConnectionRecord)
    (hkeeps : (connectionRuns config).Always (fun w e => w.1.keepsConnection e = true) es)
    (hrun : (connectionRuns config).run es = some (s, c)) : s.ConnectionsApart c := by
  have hinvariant : s.Sound ∧ s.Recorded c := TransitionSystem.run_invariant
    (P := fun w : Supervisor × ConnectionRecord => w.1.Sound ∧ w.1.Recorded w.2)
    ⟨init_sound, init_recorded⟩ (fun w e w' h hkeeps hstep => by
      obtain ⟨hstep, hrecord⟩ := TransitionSystem.observed_step.mp hstep
      rw [hrecord]
      exact ⟨h.1.step (Bool.and_eq_true_iff.mp hkeeps).1 hstep,
        h.2.step h.1 hkeeps hstep⟩) hkeeps hrun
  exact hinvariant.2.connectionsApart

/-- The device is unplugged with bytes in the buffer, and the attempt that follows is given up for
another device while its port opens. -/
def lostAndFollowed : List SupervisorEvent :=
  [.call (.start false), .returned, .resume (.awaitListing 1) (.found (some 5)),
    .resume (.foundPort 1 5) .done,
    .openSettled 0 true, .resume (.awaitOpen 1 5 0) .opened,
    .resume (.openedPort 1 5 0) (.streams false), .returned,
    .resume (.reading 1 0) (.chunk 10), .deviceDisconnected (some 5), .returned, .returned,
    .returned, .timer 0, .returned,
    .closeStep 0 .settled, .closeStep 0 .timedOut, .closeStep 0 .settled,
    .resume (.awaitTeardown 3 [0]) .done,
    .resume (.awaitListing 3) (.found (some 5)), .resume (.foundPort 3 5) .done,
    .call (.followDevice false),
    .openSettled 1 true, .closeStep 1 .settled, .closeStep 1 .settled,
    .resume (.awaitTeardown 5 [0, 1]) .done,
    .resume (.awaitListing 5) (.found (some 6)), .resume (.foundPort 5 6) .done,
    .openSettled 2 true,
    .resume (.awaitOpen 5 6 2) .opened, .resume (.openedPort 5 6 2) (.streams false), .returned]

theorem connections_apart_lostAndFollowed :
    ∃ s c, (connectionRuns ⟨true, none, 1000, 5⟩).run lostAndFollowed = some (s, c) ∧
      s.state = .open 6 2 ∧ c.begun = [0, 1, 2] ∧
      c.handed = [0, 1] ∧ s.ConnectionsApart c := by
  obtain ⟨⟨s, c⟩, hrun, hends⟩ := (Option.any_eq_true _ _).mp
    (show ((connectionRuns ⟨true, none, 1000, 5⟩).run lostAndFollowed).any (fun w =>
      decide (w.1.state = .open 6 2 ∧ w.2.begun = [0, 1, 2] ∧
        w.2.handed = [0, 1])) = true by decide)
  obtain ⟨hstate, hbegun, hhanded⟩ := of_decide_eq_true hends
  refine ⟨s, c, hrun, hstate, hbegun, hhanded, connections_apart _ _ s c ?_ hrun⟩
  exact TransitionSystem.always_of_alwaysFrom (fun (w : Supervisor × ConnectionRecord) e =>
    w.1.keepsConnection e) (by decide)

/-- The application calls `stop()` from the error callback of a device that was lost. -/
def stopWhileReporting : List SupervisorEvent :=
  [.call (.start false), .returned, .resume (.awaitListing 1) (.found (some 5)),
    .resume (.foundPort 1 5) .done,
    .openSettled 0 true, .resume (.awaitOpen 1 5 0) .opened,
    .resume (.openedPort 1 5 0) (.streams false), .returned,
    .resume (.reading 1 0) .ended, .call .stop, .returned]

/-- The loss goes on after the callback, and hands the port to a close sequence beside that of
`stop()`. -/
theorem closed_twice :
    ∃ s c, (connectionRuns ⟨true, none, 1000, 5⟩).run stopWhileReporting = some (s, c) ∧
      ¬ s.ConnectionsApart c := by
  obtain ⟨⟨s, c⟩, hrun, hends⟩ := (Option.any_eq_true _ _).mp
    (show ((connectionRuns ⟨true, none, 1000, 5⟩).run stopWhileReporting).any (fun w =>
      decide (w.1.opens = [⟨0, 5, .opened, false⟩] ∧ w.1.tasks.count (.stopDraining 0) = 1 ∧
        w.2.handed.count 0 = 1)) = true
      by decide)
  obtain ⟨hopens, hdraining, hhanded⟩ := of_decide_eq_true hends
  refine ⟨s, c, hrun, fun hapart => ?_⟩
  have honce := hapart.closed ⟨0, 5, .opened, false⟩
    (by rw [hopens]; exact List.mem_singleton_self _) (Or.inl rfl)
  dsimp only at honce
  rw [hdraining, hhanded] at honce
  split at honce
  · cases honce
  · cases honce

end Supervisor

end SerialBroker
