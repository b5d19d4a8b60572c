import Mathlib.Data.List.Perm.Lattice
import SerialBroker.Owner.PortSupervisor

/-!
# A stopped supervisor stays stopped

The functions that work on one attempt form a chain: each resumes with the generation of its
attempt, and only one of them has it. While that is the supervisor's generation, and the supervisor
is not stopped, the chain fits the state: it lists while the state says listing, and opens or reads
what the state says is opening or open. So whatever checks the generation also knows the state, and
only the places that do not look can revive a supervisor that was stopped meanwhile.
-/

namespace SerialBroker

namespace ConnectionState

/-- The reconnect timer of the state. -/
def timers : ConnectionState → List TimerId
  | .reconnecting timer => [timer]
  | _ => []

/-- The call of `open()` whose port the state has. -/
def openId? : ConnectionState → Option OpenId
  | .opening _ openId | .open _ openId => some openId
  | _ => none

end ConnectionState

/-- The generation of the attempt a function works on. -/
def Task.generation? : Task → Option Generation
  | .awaitTeardown generation _ | .awaitListing generation | .foundPort generation _
  | .awaitOpen generation _ _
  | .openedPort generation _ _ | .reading generation _ => some generation
  | .stopDraining _ | .stopTeardown _ | .stopAnswered => none

/-- The state of the connection while the attempt is current. -/
def Task.Fits (state : ConnectionState) : Task → Prop
  | .awaitTeardown .. | .awaitListing _ | .foundPort .. => state = .listing
  | .awaitOpen _ port openId | .openedPort _ port openId => state = .opening port openId
  | .reading _ openId => ∃ port, state = .open port openId
  | .stopDraining _ | .stopTeardown _ | .stopAnswered => True

def Frame.generation? : Frame → Option Generation
  | .connecting generation | .openReported generation _ | .pushed generation _
  | .lossReported _ _ generation
  | .listingReported generation | .followFlushed _ generation => some generation
  | .done | .lossFlushed .. | .exhausted | .stopFlushed _ | .stopReported => none

def Frame.Fits (state : ConnectionState) : Frame → Prop
  | .connecting _ | .listingReported _ => state = .listing
  | .openReported _ openId | .pushed _ openId => ∃ port, state = .open port openId
  | _ => True

/-- What a method that was called back from knew of the state it began in. -/
def Frame.Began : Frame → Prop
  | .lossFlushed previous .. | .followFlushed previous _ | .stopFlushed previous =>
    ∃ port openId, previous = .open port openId
  | .lossReported previous .. => previous ≠ .stopped ∧ previous.timers = []
  | _ => True

/-- The frames a call leaves, which may lie on those of another call or event. -/
def Frame.IsOfCall : Frame → Prop
  | .done | .connecting _ | .followFlushed .. | .stopFlushed _ => True
  | _ => False

namespace Supervisor

variable {config : ConnectionConfig} {s s' : Supervisor} {task : Task} {frame : Frame}
  {generation : Generation}
  {answer : Answer} {event : SupervisorEvent}

/-- The generations of the attempts that functions work on. -/
def chains (s : Supervisor) : List Generation :=
  s.tasks.filterMap Task.generation? ++ s.stack.filterMap Frame.generation?

/-- What holds also in the middle of a change of the state. -/
structure Base (s : Supervisor) : Prop where
  stopped : s.hasStopped = true → s.state = .stopped
  timers : s.timers = s.state.timers
  opens : ∀ call ∈ s.opens, call.isAfterStop = false
  le : ∀ generation ∈ s.chains, generation ≤ s.generation
  nodup : s.chains.Nodup
  began : ∀ frame ∈ s.stack, frame.Began
  order : s.stack.Pairwise fun above _ => above.IsOfCall
  held : ∀ previous, .stopFlushed previous ∈ s.stack → s.timers = []

/-- What holds between two steps of a run in which no step was disturbed. -/
structure Sound (s : Supervisor) : Prop extends s.Base where
  tasks : ∀ task ∈ s.tasks, task.generation? = some s.generation → s.state = .stopped ∨
    task.Fits s.state
  frames : ∀ frame ∈ s.stack, frame.generation? = some s.generation → s.state = .stopped ∨
    frame.Fits s.state

/-- No attempt has the current generation. -/
def Fresh (s : Supervisor) : Prop := s.generation ∉ s.chains

theorem mem_chains : generation ∈ s.chains ↔
    (∃ task ∈ s.tasks, task.generation? = some generation) ∨
      ∃ frame ∈ s.stack, frame.generation? = some generation := by
  simp [chains, List.mem_append, List.mem_filterMap]

theorem Base.sound_of_fresh (h : s.Base) (hfresh : s.Fresh) : s.Sound where
  toBase := h
  tasks task htask hg := absurd (mem_chains.mpr (Or.inl ⟨task, htask, hg⟩)) hfresh
  frames frame hframe hg := absurd (mem_chains.mpr (Or.inr ⟨frame, hframe, hg⟩)) hfresh

theorem init_sound : init.Sound where
  stopped := nofun
  timers := rfl
  opens := by simp [init]
  le := by simp [init, chains]
  nodup := by simp [init, chains]
  began := by simp [init]
  order := List.Pairwise.nil
  held := by simp [init]
  tasks := by simp [init]
  frames := by simp [init]

/-! ### taking up and leaving off a function -/

/-- Everything but the functions under way and what a change of the state needs is left alone. -/
structure SameChains (s s' : Supervisor) : Prop where
  tasks : s'.tasks = s.tasks
  stack : s'.stack = s.stack
  opens : s'.opens = s.opens
  hasStopped : s'.hasStopped = s.hasStopped

theorem SameChains.chains (h : SameChains s s') : s'.chains = s.chains := by
  rw [Supervisor.chains, h.tasks, h.stack, Supervisor.chains]

/-- A change of the state, which leaves a reconnect timer only where no `stop()` is under way. -/
theorem Base.change (h : s.Base) (hsame : SameChains s s') (hle : s.generation ≤ s'.generation)
    (hstopped : s'.hasStopped = true → s'.state = .stopped) (htimers : s'.timers = s'.state.timers)
    (hheld : s'.state.timers = [] ∨ s.stack = []) : s'.Base where
  stopped := hstopped
  timers := htimers
  opens := by rw [hsame.opens]; exact h.opens
  le g hg := Nat.le_trans (h.le g (hsame.chains ▸ hg)) hle
  nodup := by rw [hsame.chains]; exact h.nodup
  began := by rw [hsame.stack]; exact h.began
  order := by rw [hsame.stack]; exact h.order
  held previous hprevious := by
    rw [hsame.stack] at hprevious
    rcases hheld with hheld | hheld
    · rw [htimers, hheld]
    · rw [hheld] at hprevious
      exact absurd hprevious List.not_mem_nil

/-- A later generation makes every attempt under way stale. -/
theorem Base.fresh_of_lt (h : s.Base) (hsame : SameChains s s')
    (hlt : s.generation < s'.generation) : s'.Fresh := fun hg =>
  Nat.lt_irrefl _ (Nat.lt_of_le_of_lt (h.le _ (hsame.chains ▸ hg)) hlt)

theorem Fresh.of_same (h : s.Fresh) (hsame : SameChains s s')
    (hgeneration : s'.generation = s.generation) : s'.Fresh := by
  unfold Fresh
  rw [hsame.chains, hgeneration]
  exact h

/-- Fields that no invariant is about may change. -/
theorem Sound.note (h : s.Sound) (hsame : SameChains s s')
    (hgeneration : s'.generation = s.generation)
    (hstate : s'.state = s.state) (htimers : s'.timers = s.timers) : s'.Sound where
  stopped := by rw [hsame.hasStopped, hstate]; exact h.stopped
  timers := by rw [hstate, htimers]; exact h.timers
  opens := by rw [hsame.opens]; exact h.opens
  le := by rw [hsame.chains, hgeneration]; exact h.le
  nodup := by rw [hsame.chains]; exact h.nodup
  began := by rw [hsame.stack]; exact h.began
  order := by rw [hsame.stack]; exact h.order
  held := by rw [hsame.stack, htimers]; exact h.held
  tasks := by rw [hsame.tasks, hgeneration, hstate]; exact h.tasks
  frames := by rw [hsame.stack, hgeneration, hstate]; exact h.frames

theorem chains_callback :
    (s.callback frame).chains.Perm (frame.generation?.toList ++ s.chains) := by
  unfold chains callback
  cases hg : frame.generation? with
  | none => simp [hg]
  | some g =>
    simp only [List.filterMap_cons, hg, Option.toList_some, List.singleton_append]
    exact List.perm_middle

theorem chains_wait : (s.wait task).chains.Perm (task.generation?.toList ++ s.chains) := by
  unfold chains wait
  rw [List.filterMap_append]
  cases hg : task.generation? with
  | none => simp [hg]
  | some g =>
    simp only [List.filterMap_cons, List.filterMap_nil, hg, Option.toList_some, List.append_assoc]
    exact List.perm_middle

/-- What a function of an attempt has to know to go on with it. -/
structure Current (s : Supervisor) (generation? : Option Generation)
    (Fits : ConnectionState → Prop) : Prop where
  le : ∀ generation, generation? = some generation →
    generation ≤ s.generation ∧ generation ∉ s.chains
  fits : generation? = some s.generation → s.state = .stopped ∨ Fits s.state

theorem Current.of_none {Fits : ConnectionState → Prop} : s.Current none Fits := ⟨nofun, nofun⟩

theorem Current.nodup {generation? : Option Generation} {Fits : ConnectionState → Prop}
    (hc : s.Current generation? Fits)
    (h : s.Base) : (generation?.toList ++ s.chains).Nodup := by
  cases generation? with
  | none => exact h.nodup
  | some g => exact List.nodup_cons.mpr ⟨(hc.le g rfl).2, h.nodup⟩

theorem Current.all_le {generation? : Option Generation} {Fits : ConnectionState → Prop}
    (hc : s.Current generation? Fits)
    (h : s.Base) : ∀ g ∈ generation?.toList ++ s.chains, g ≤ s.generation := by
  intro g hg
  rcases List.mem_append.mp hg with hg | hg
  · exact (hc.le g (Option.mem_toList.mp hg)).1
  · exact h.le g hg

theorem Sound.callback (h : s.Sound) (hc : s.Current frame.generation? fun state =>
      frame.Fits state) (hbegan : frame.Began)
    (horder : frame.IsOfCall ∨ s.stack = [])
    (hheld : ∀ previous, frame = .stopFlushed previous → s.timers = []) :
    (s.callback frame).Sound where
  stopped := h.stopped
  timers := h.timers
  opens := h.opens
  le g hg := hc.all_le h.toBase g (chains_callback.mem_iff.mp hg)
  nodup := chains_callback.nodup_iff.mpr (hc.nodup h.toBase)
  began f hf := by
    rcases List.mem_cons.mp hf with rfl | hf
    · exact hbegan
    · exact h.began f hf
  order := by
    refine List.pairwise_cons.mpr ⟨fun below hbelow => ?_, h.order⟩
    rcases horder with horder | horder
    · exact horder
    · rw [horder] at hbelow
      exact absurd hbelow List.not_mem_nil
  held previous hprevious := by
    rcases List.mem_cons.mp hprevious with hf | hf
    · exact hheld previous hf.symm
    · exact h.held previous hf
  tasks := h.tasks
  frames f hf hg := by
    rcases List.mem_cons.mp hf with rfl | hf
    · exact hc.fits hg
    · exact h.frames f hf hg

theorem Sound.wait (h : s.Sound) (hc : s.Current task.generation? fun state => task.Fits state) :
    (s.wait task).Sound where
  stopped := h.stopped
  timers := h.timers
  opens := h.opens
  le g hg := hc.all_le h.toBase g (chains_wait.mem_iff.mp hg)
  nodup := chains_wait.nodup_iff.mpr (hc.nodup h.toBase)
  began := h.began
  order := h.order
  held := h.held
  tasks t ht hg := by
    rcases List.mem_append.mp ht with ht | ht
    · exact h.tasks t ht hg
    · obtain rfl := List.mem_singleton.mp ht
      exact hc.fits hg
  frames := h.frames

/-- The supervisor while the task's function runs. -/
def resumed (s : Supervisor) (task : Task) : Supervisor := { s with tasks := s.tasks.erase task }

theorem chains_resumed (htask : task ∈ s.tasks) :
    s.chains.Perm (task.generation?.toList ++ (s.resumed task).chains) := by
  have hperm := (List.perm_cons_erase htask).filterMap Task.generation?
  have happend := hperm.append_right (s.stack.filterMap Frame.generation?)
  unfold chains resumed
  refine happend.trans ?_
  cases hg : task.generation? with
  | none => simp [hg]
  | some g => simp [hg]

theorem Sound.resumed (h : s.Sound) (htask : task ∈ s.tasks) :
    (s.resumed task).Sound ∧
      (s.resumed task).Current task.generation? fun state => task.Fits state := by
  have hperm := chains_resumed htask
  have hnodup := hperm.nodup_iff.mp h.nodup
  refine ⟨⟨⟨h.stopped, h.timers, h.opens, fun g hg =>
    h.le g (hperm.mem_iff.mpr (List.mem_append_right _ hg)),
    (List.nodup_append.mp hnodup).2.1, h.began, h.order, h.held⟩,
    fun t ht => h.tasks t (List.mem_of_mem_erase ht), h.frames⟩,
    fun g hg => ⟨?_, ?_⟩, h.tasks task htask⟩
  · exact h.le g (hperm.mem_iff.mpr (List.mem_append_left _ (Option.mem_toList.mpr hg)))
  · rw [hg] at hnodup
    exact (List.nodup_cons.mp hnodup).1

theorem Sound.returned {stack : List Frame} (h : s.Sound) (hstack : s.stack = frame :: stack) :
    ({ s with stack } : Supervisor).Sound ∧
      ({ s with stack } : Supervisor).Current frame.generation? (fun state => frame.Fits state) ∧
        frame.Began ∧
      (frame.IsOfCall ∨ stack = []) := by
  have hchains : s.chains.Perm (frame.generation?.toList ++
      ({ s with stack } : Supervisor).chains) := by
    have hcallback : s = ({ s with stack } : Supervisor).callback frame := by
      unfold Supervisor.callback
      rw [← hstack]
    rw [hcallback]
    exact chains_callback
  have hnodup := hchains.nodup_iff.mp h.nodup
  have hmem : ∀ f ∈ stack, f ∈ s.stack := fun f hf => hstack ▸ List.mem_cons_of_mem _ hf
  have hself : frame ∈ s.stack := hstack ▸ List.mem_cons_self
  have horder : (frame :: stack).Pairwise fun above _ => above.IsOfCall := hstack ▸ h.order
  refine ⟨⟨⟨h.stopped, h.timers, h.opens, fun g hg =>
    h.le g (hchains.mem_iff.mpr (List.mem_append_right _ hg)),
    (List.nodup_append.mp hnodup).2.1, fun f hf => h.began f (hmem f hf),
    (List.pairwise_cons.mp horder).2,
    fun previous hprevious => h.held previous (hmem _ hprevious)⟩, h.tasks, fun f hf =>
    h.frames f (hmem f hf)⟩,
    ⟨fun g hg => ⟨?_, ?_⟩, h.frames frame hself⟩, h.began frame hself, ?_⟩
  · exact h.le g (hchains.mem_iff.mpr (List.mem_append_left _ (Option.mem_toList.mpr hg)))
  · rw [hg] at hnodup
    exact (List.nodup_cons.mp hnodup).1
  · cases stack with
    | nil => exact Or.inr rfl
    | cons below rest => exact Or.inl ((List.pairwise_cons.mp horder).1 below List.mem_cons_self)

/-! ### the methods -/

theorem Current.of_not_stale {Fits : ConnectionState → Prop} (hc : s.Current (some generation) Fits)
    (hstale : ¬ s.isStale generation = true) :
    generation = s.generation ∧ s.Fresh ∧ s.state ≠ .stopped ∧ Fits s.state := by
  obtain ⟨rfl, hstate⟩ : s.generation = generation ∧ s.state ≠ .stopped := by
    simpa [isStale] using hstale
  exact ⟨rfl, (hc.le _ rfl).2, hstate, (hc.fits rfl).resolve_left hstate⟩

/-- An attempt that begins, or goes on, with the current generation. -/
theorem Current.of_fresh {Fits : ConnectionState → Prop} (hfresh : s.Fresh) (hfits : Fits s.state) :
    s.Current (some s.generation) Fits where
  le g hg := by
    obtain rfl := Option.some.inj hg
    exact ⟨Nat.le_refl _, hfresh⟩
  fits _ := Or.inr hfits

theorem Current.of_same {Fits : ConnectionState → Prop} {generation? : Option Generation}
    (hc : s.Current generation? Fits)
    (hsame : SameChains s s') (hgeneration : s'.generation = s.generation)
    (hstate : s'.state = s.state) :
    s'.Current generation? Fits where
  le g hg := by
    rw [hsame.chains, hgeneration]
    exact hc.le g hg
  fits := by
    rw [hgeneration, hstate]
    exact hc.fits

theorem Sound.callback_done (h : s.Sound) : (s.callback .done).Sound :=
  h.callback .of_none trivial (Or.inl trivial) nofun

theorem Sound.setStatus (h : s.Sound) (status : SerialBrokerStatus) :
    (s.setStatus status).Sound := by
  unfold Supervisor.setStatus
  split
  · exact h
  · exact Sound.callback_done (h.note ⟨rfl, rfl, rfl, rfl⟩ rfl rfl rfl)

theorem Sound.listPorts (h : s.Sound) (hc : s.Current (some generation) (· = .listing)) :
    (s.listPorts generation).Sound :=
  Sound.wait (h.note ⟨rfl, rfl, rfl, rfl⟩ rfl rfl rfl) (hc.of_same ⟨rfl, rfl, rfl, rfl⟩ rfl rfl)

theorem Sound.findPort (h : s.Sound) (hc : s.Current (some generation) (· = .listing)) :
    (s.findPort generation).Sound := by
  unfold Supervisor.findPort
  split
  · exact h.wait hc
  · exact h.listPorts hc

theorem Base.not_hasStopped (h : s.Base) (hstate : s.state ≠ .stopped) : s.hasStopped = false := by
  cases hstop : s.hasStopped with
  | false => rfl
  | true => exact absurd (h.stopped hstop) hstate

/-- A state that is left for another is not the stopped one. -/
theorem Base.not_stopped (h : s.Base) (hstate : s.state ≠ .stopped) {P : Prop} :
    s.hasStopped = true → P := fun hstop =>
  absurd (h.stopped hstop) hstate

theorem Base.connect (h : s.Base) (hstate : s.state ≠ .stopped) (htimers : s.timers = []) :
    s.connect.Sound := by
  generalize hs' : { s with
    generation := s.generation + 1, backoff := s.backoff.recordAttempt, state :=
      ConnectionState.listing } = s'
  have hconnect : s.connect = if s'.status = .connecting then s'.findPort s'.generation
      else ({ s' with status := .connecting } : Supervisor).callback (.connecting
        s'.generation) := by
    subst hs'
    unfold Supervisor.connect
    rw [if_neg hstate]
  have hsame : SameChains s s' := by subst hs'; exact ⟨rfl, rfl, rfl, rfl⟩
  have hgeneration : s'.generation = s.generation + 1 := by subst hs'; rfl
  have hlisting : s'.state = .listing := by subst hs'; rfl
  have hbase : s'.Base := by
    refine h.change hsame (hgeneration ▸ Nat.le_succ _) ?_ ?_ ?_
    · rw [hsame.hasStopped]
      exact h.not_stopped hstate
    · subst hs'
      exact htimers
    · exact Or.inl (by rw [hlisting]; rfl)
  have hfresh : s'.Fresh := h.fresh_of_lt hsame (hgeneration ▸ Nat.lt_succ_self _)
  have hsound := hbase.sound_of_fresh hfresh
  rw [hconnect]
  split
  · exact hsound.findPort (.of_fresh hfresh hlisting)
  · exact Sound.callback (hsound.note ⟨rfl, rfl, rfl, rfl⟩ rfl rfl rfl)
      (Current.of_same (Current.of_fresh hfresh hlisting) ⟨rfl, rfl, rfl, rfl⟩ rfl rfl) trivial
        (Or.inl trivial) nofun

/-- An attempt that ends, where nothing is connected. -/
theorem Base.giveUp (h : s.Base) (hfresh : s.Fresh) (hstate : s.state ≠ .stopped)
    (htimers : s.timers = []) :
    s.giveUp.Sound := by
  refine Sound.setStatus ?_ _
  have hsame : SameChains s { s with state := ConnectionState.failed } := ⟨rfl, rfl, rfl, rfl⟩
  exact (h.change hsame (Nat.le_refl _) (h.not_stopped hstate) htimers (Or.inl rfl)).sound_of_fresh
    (hfresh.of_same hsame rfl)

theorem Base.recordFailedAttempt (h : s.Base) (hfresh : s.Fresh) (hstate : s.state ≠ .stopped)
    (htimers : s.timers = [])
    (hstack : s.stack = []) : (s.recordFailedAttempt config).Sound := by
  unfold Supervisor.recordFailedAttempt
  split
  · exact h.giveUp hfresh hstate htimers
  · generalize hb : s.backoff.recordDisconnected s.monotonicNow config.stableAfterMs = backoff
    dsimp only
    split
    · have hsame : SameChains s { s with backoff, state := ConnectionState.failed } :=
        ⟨rfl, rfl, rfl, rfl⟩
      have hsound := (h.change hsame (Nat.le_refl _) (h.not_stopped hstate) htimers
          (Or.inl rfl)).sound_of_fresh
        (hfresh.of_same hsame rfl)
      split
      · exact Sound.callback_done (hsound.note ⟨rfl, rfl, rfl, rfl⟩ rfl rfl rfl)
      · exact Sound.callback (hsound.note ⟨rfl, rfl, rfl, rfl⟩ rfl rfl rfl) .of_none trivial
          (Or.inr hstack) nofun
    · refine Sound.setStatus ?_ _
      have hsame : SameChains s { s with
          backoff, timers := s.nextTimer :: s.timers, nextTimer := s.nextTimer + 1
          state := ConnectionState.reconnecting s.nextTimer } := ⟨rfl, rfl, rfl, rfl⟩
      exact (h.change hsame (Nat.le_refl _) (h.not_stopped hstate)
          (by dsimp only; rw [htimers]; rfl)
        (Or.inr hstack)).sound_of_fresh (hfresh.of_same hsame rfl)

theorem Base.reportLoss (h : s.Base) (hstack : s.stack = []) (previous : ConnectionState)
    (hprevious : previous ≠ .stopped ∧ previous.timers = []) (code : SerialBrokerErrorCode)
    (next : AfterLoss) :
    (s.reportLoss previous code next).Sound := by
  generalize hs' : { s with generation := s.generation + 1, reports := s.reports ++ [code] } = s'
  have hsame : SameChains s s' := by subst hs'; exact ⟨rfl, rfl, rfl, rfl⟩
  have hgeneration : s'.generation = s.generation + 1 := by subst hs'; rfl
  have hbase : s'.Base := by
    refine h.change hsame (hgeneration ▸ Nat.le_succ _) ?_ ?_ ?_ <;> subst hs'
    · exact h.stopped
    · exact h.timers
    · exact Or.inr hstack
  have hfresh : s'.Fresh := h.fresh_of_lt hsame (hgeneration ▸ Nat.lt_succ_self _)
  have hreport : s.reportLoss previous code next = s'.callback (.lossReported previous
      next s'.generation) := by
    subst hs'
    rfl
  rw [hreport]
  exact (hbase.sound_of_fresh hfresh).callback (.of_fresh hfresh trivial) hprevious
    (Or.inr (by rw [hsame.stack, hstack])) nofun

theorem Sound.handleConnectionLoss (h : s.Sound) (hstack : s.stack = [])
    (code : SerialBrokerErrorCode) (next : AfterLoss) :
    (s.handleConnectionLoss code next).Sound := by
  unfold Supervisor.handleConnectionLoss
  split
  · exact h
  · exact h
  · rename_i port openId hstate
    split
    · exact Sound.callback (h.note ⟨rfl, rfl, rfl, rfl⟩ rfl rfl rfl) .of_none ⟨port, openId, rfl⟩
        (Or.inr hstack) nofun
    · exact h.toBase.reportLoss hstack (.open port openId) ⟨nofun, rfl⟩ code next
  · rename_i hstopped hreconnecting hopen
    refine h.toBase.reportLoss hstack s.state ⟨hstopped, ?_⟩ code next
    cases hstate : s.state with
    | reconnecting timer => exact absurd hstate (hreconnecting timer)
    | _ => rfl

/-- The connection that was lost is closed; what the supervisor goes on with is unchanged. -/
theorem Base.trackLost (h : s.Base) (previous : ConnectionState) (openStep : CloseStep) :
    let s' := match previous with
      | .open _ openId => s.trackTeardown openId openStep
      | .opening _ openId => s.trackTeardown openId .waitingForOpen
      | _ => s
    s'.Base ∧ SameChains s s' ∧ s'.generation = s.generation ∧ s'.state = s.state ∧
      s'.timers = s.timers := by
  have hsame : ∀ openId step, SameChains s (s.trackTeardown openId step) :=
    fun _ _ => ⟨rfl, rfl, rfl, rfl⟩
  have hbase : ∀ openId step, (s.trackTeardown openId step).Base := fun _ _ =>
    ⟨h.stopped, h.timers, h.opens, h.le, h.nodup, h.began, h.order, h.held⟩
  cases previous with
  | «open» | opening => exact ⟨hbase _ _, hsame _ _, rfl, rfl, rfl⟩
  | _ => exact ⟨h, ⟨rfl, rfl, rfl, rfl⟩, rfl, rfl, rfl⟩

theorem Base.afterLoss (h : s.Base) (hfresh : s.Fresh) (hstate : s.state ≠ .stopped)
    (htimers : s.timers = [])
    (hstack : s.stack = []) (previous : ConnectionState) (next : AfterLoss) :
    (s.afterLoss config previous next).Sound := by
  unfold Supervisor.afterLoss
  obtain ⟨hbase, hsame, hgeneration, hstate', htimers'⟩ := h.trackLost previous .cancelling
  dsimp only
  cases next with
  | giveUp =>
    exact hbase.giveUp (hfresh.of_same hsame hgeneration) (hstate' ▸ hstate) (htimers' ▸ htimers)
  | retry =>
    exact hbase.recordFailedAttempt (hfresh.of_same hsame hgeneration) (hstate' ▸ hstate)
        (htimers' ▸ htimers)
      (hsame.stack ▸ hstack)

theorem Base.followNow (h : s.Base) (hstate : s.state ≠ .stopped) (htimers : s.timers = [])
    (previous : ConnectionState) :
    (s.followNow previous).Sound := by
  unfold Supervisor.followNow
  obtain ⟨hbase, hsame, -, hstate', htimers'⟩ := h.trackLost previous .draining
  dsimp only
  rw [← htimers'] at htimers
  exact Base.connect (hbase.change ⟨rfl, rfl, rfl, rfl⟩ (Nat.le_refl _)
      (hbase.not_stopped (hstate' ▸ hstate)) htimers
    (Or.inl rfl)) nofun htimers

theorem Sound.listed (h : s.Sound) (hc : s.Current (some generation) (· = .listing))
    (hstack : s.stack = [])
    (found : Option PortId) : (s.listed config generation found).Sound := by
  unfold Supervisor.listed
  split
  · exact h
  rename_i hstale
  obtain ⟨rfl, hfresh, hstate, hlisting⟩ := hc.of_not_stale hstale
  have htimers : s.timers = [] := by rw [h.timers, hlisting]; rfl
  split
  · exact h.wait hc
  · split
    · exact h.listPorts hc
    · split
      · exact h.recordFailedAttempt hfresh hstate htimers hstack
      · refine Sound.setStatus ?_ _
        have hsame : SameChains s { s with state := ConnectionState.awaitingPermission } :=
          ⟨rfl, rfl, rfl, rfl⟩
        exact (h.change hsame (Nat.le_refl _) (h.not_stopped hstate) htimers
            (Or.inl rfl)).sound_of_fresh
          (hfresh.of_same hsame rfl)

theorem Sound.listingFailed (h : s.Sound) (hc : s.Current (some generation) (· = .listing))
    (hstack : s.stack = [])
    (isTimeout : Bool) : (s.listingFailed generation isTimeout).Sound := by
  unfold Supervisor.listingFailed
  split
  · exact h
  rename_i hstale
  obtain ⟨rfl, -, -, -⟩ := hc.of_not_stale hstale
  split
  · exact h.handleConnectionLoss hstack _ _
  · exact Sound.callback (h.note ⟨rfl, rfl, rfl, rfl⟩ rfl rfl rfl)
        (hc.of_same ⟨rfl, rfl, rfl, rfl⟩ rfl rfl) trivial
      (Or.inr hstack) nofun

theorem Sound.connectThrew (h : s.Sound) (hstack : s.stack = []) (code : SerialBrokerErrorCode) :
    (s.connectThrew generation code).Sound := by
  unfold Supervisor.connectThrew
  split
  · exact h
  · exact h.handleConnectionLoss hstack _ _

theorem Sound.lockStreams (h : s.Sound) (locks : List StreamLock) : (s.lockStreams locks).Sound :=
  h.note ⟨rfl, rfl, rfl, rfl⟩ rfl rfl rfl

/-- The next call of `open()`. -/
theorem Base.addOpen (h : s.Base) (hstate : s.state ≠ .stopped) {call : OpenCall}
    (hcall : call.isAfterStop = s.hasStopped) :
    ∀ call' ∈ s.opens ++ [call], call'.isAfterStop = false := by
  intro call' hmem
  rcases List.mem_append.mp hmem with hmem | hmem
  · exact h.opens call' hmem
  · obtain rfl := List.mem_singleton.mp hmem
    rw [hcall, h.not_hasStopped hstate]

theorem Sound.openPort (h : s.Sound) (hc : s.Current (some generation) (· = .listing))
    (hstale : s.isStale generation = false)
    (port : PortId) : (s.openPort generation port).Sound := by
  obtain ⟨rfl, hfresh, hstate, hlisting⟩ := hc.of_not_stale (Bool.eq_false_iff.mp hstale)
  have htimers : s.timers = [] := by rw [h.timers, hlisting]; rfl
  generalize hs' : { s with
    foundPort := some port, foundPortDetached := false
    opens := s.opens ++ [OpenCall.mk s.opens.length port .pending s.hasStopped]
    state := ConnectionState.opening port s.opens.length } = s'
  have hopen : s.openPort s.generation port = s'.wait (.awaitOpen s'.generation port
      s.opens.length) := by
    subst hs'
    rfl
  have hbase : s'.Base := by
    subst hs'
    exact ⟨h.not_stopped hstate, htimers, h.addOpen hstate rfl, h.le, h.nodup, h.began,
      h.order, h.held⟩
  have hfresh' : s'.Fresh := by
    subst hs'
    exact hfresh
  rw [hopen]
  exact (hbase.sound_of_fresh hfresh').wait (.of_fresh hfresh' (by subst hs'; rfl))

theorem Sound.openPortThrew (h : s.Sound) (hc : s.Current (some generation) (· = .listing))
    (hstack : s.stack = [])
    (hstale : s.isStale generation = false) (port : PortId) (code : SerialBrokerErrorCode) :
    (s.openPortThrew generation port code).Sound := by
  obtain ⟨-, -, hstate, -⟩ := hc.of_not_stale (Bool.eq_false_iff.mp hstale)
  have hsound : ({ s with
      foundPort := some port, foundPortDetached := false
      opens := s.opens ++ [OpenCall.mk s.opens.length port .failed s.hasStopped] } :
        Supervisor).Sound :=
    ⟨⟨h.stopped, h.timers, h.addOpen hstate rfl, h.le, h.nodup, h.began, h.order, h.held⟩,
      h.tasks, h.frames⟩
  exact hsound.connectThrew hstack code

theorem Sound.startReading (h : s.Sound) {port : PortId} {openId : OpenId}
    (hc : s.Current (some generation) (· = .opening port openId)) (hstack : s.stack = [])
    (hstale : s.isStale generation = false) (isMissing : Bool) :
    (s.startReading generation port openId isMissing).Sound := by
  obtain ⟨rfl, hfresh, hstate, hopening⟩ := hc.of_not_stale (Bool.eq_false_iff.mp hstale)
  have htimers : s.timers = [] := by rw [h.timers, hopening]; rfl
  unfold Supervisor.startReading
  split
  · exact h.handleConnectionLoss hstack _ _
  generalize hs' : { s.lockStreams [.reader openId, .writer openId] with
    state := ConnectionState.open port openId, buffered := 0
    backoff := s.backoff.recordConnected s.monotonicNow } = s'
  have hsame : SameChains s s' := by subst hs'; exact ⟨rfl, rfl, rfl, rfl⟩
  have hgeneration : s'.generation = s.generation := by subst hs'; rfl
  have hopen : s'.state = .open port openId := by subst hs'; rfl
  have hbase : s'.Base := by
    refine h.change hsame (Nat.le_of_eq hgeneration.symm) ?_ ?_ (Or.inl (by rw [hopen]; rfl))
      <;> subst hs'
    · exact h.not_stopped hstate
    · exact htimers
  have hfresh' : s'.Fresh := hfresh.of_same hsame hgeneration
  have hsound := hbase.sound_of_fresh hfresh'
  rw [← hgeneration]
  dsimp only
  split
  · exact hsound.wait (.of_fresh hfresh' ⟨port, hopen⟩)
  · exact Sound.callback (hsound.note ⟨rfl, rfl, rfl, rfl⟩ rfl rfl rfl)
      (Current.of_same (.of_fresh hfresh' ⟨port, hopen⟩) ⟨rfl, rfl, rfl, rfl⟩ rfl rfl) trivial
      (Or.inr (by rw [← hstack]; exact hsame.stack)) nofun

theorem Sound.readChunk (h : s.Sound) {openId : OpenId}
    (hc : s.Current (some generation) fun state => ∃ port, state = .open port openId)
    (hstack : s.stack = []) (bytes : Nat) : (s.readChunk config generation openId bytes).Sound := by
  unfold Supervisor.readChunk
  split
  · exact h
  split
  · exact h.wait hc
  dsimp only
  split
  · exact Sound.callback (h.note ⟨rfl, rfl, rfl, rfl⟩ rfl rfl rfl)
        (hc.of_same ⟨rfl, rfl, rfl, rfl⟩ rfl rfl) trivial
      (Or.inr hstack) nofun
  · exact Sound.wait (h.note ⟨rfl, rfl, rfl, rfl⟩ rfl rfl rfl)
      (hc.of_same ⟨rfl, rfl, rfl, rfl⟩ rfl rfl)

/-- `stop()` ends every attempt: what follows has no generation of its own. -/
theorem Sound.stopNow (h : s.Sound) (previous : ConnectionState)
    (htimers : s.timers = previous.timers) :
    (s.stopNow previous).Sound := by
  have hbase : ∀ s' : Supervisor, SameChains
      { s with hasStopped := true } s' → s'.generation = s.generation →
      s'.state = .stopped → s'.timers = [] → s'.Sound := fun s' hsame hgeneration hstate htimers =>
    { stopped := fun _ => hstate
      timers := by rw [htimers, hstate]; rfl
      opens := by rw [hsame.opens]; exact h.opens
      le := by rw [hsame.chains, hgeneration]; exact h.le
      nodup := by rw [hsame.chains]; exact h.nodup
      began := by rw [hsame.stack]; exact h.began
      order := by rw [hsame.stack]; exact h.order
      held := fun _ _ => htimers
      tasks := fun _ _ _ => Or.inl hstate
      frames := fun _ _ _ => Or.inl hstate }
  unfold Supervisor.stopNow
  cases previous with
  | reconnecting timer =>
    refine Sound.wait (hbase _ ⟨rfl, rfl, rfl, rfl⟩ rfl rfl ?_) .of_none
    simp [clearTimer, htimers, ConnectionState.timers]
  | _ => exact Sound.wait (hbase _ ⟨rfl, rfl, rfl, rfl⟩ rfl rfl htimers) .of_none

theorem Sound.nextGeneration (h : s.Sound) :
    ({ s with generation := s.generation + 1 } : Supervisor).Sound :=
  Base.sound_of_fresh ⟨h.stopped, h.timers, h.opens, fun g hg => Nat.le_succ_of_le (h.le g hg),
      h.nodup, h.began, h.order, h.held⟩
    (h.fresh_of_lt ⟨rfl, rfl, rfl, rfl⟩ (Nat.lt_succ_self _))

theorem Sound.stop (h : s.Sound) : s.stop.Sound := by
  unfold Supervisor.stop
  split
  · exact h
  have hnext := h.nextGeneration
  dsimp only
  split
  · rename_i port openId hstate
    have htimers : s.timers = [] := by rw [h.timers, hstate]; rfl
    split
    · exact Sound.callback (hnext.note ⟨rfl, rfl, rfl, rfl⟩ rfl rfl rfl) .of_none
          ⟨port, openId, rfl⟩ (Or.inl trivial)
        fun _ _ => htimers
    · exact hnext.stopNow (.open port openId) htimers
  · exact hnext.stopNow s.state h.timers

theorem Sound.stopDrained (h : s.Sound) (openId : OpenId) : (s.stopDrained openId).Sound :=
  Sound.wait (h.note ⟨rfl, rfl, rfl, rfl⟩ rfl rfl rfl) .of_none

theorem Sound.stopEnd (h : s.Sound) (hstack : s.stack = []) : s.stopEnd.Sound := by
  unfold Supervisor.stopEnd
  split
  · exact h.note ⟨rfl, rfl, rfl, rfl⟩ rfl rfl rfl
  · exact Sound.callback (h.note ⟨rfl, rfl, rfl, rfl⟩ rfl rfl rfl) .of_none trivial
      (Or.inr hstack) nofun

/-- A new attempt after everything that counted the earlier ones was reset. -/
theorem Base.connectAgain (h : s.Base) (hstate : s.state ≠ .stopped) {timers : List TimerId}
    (htimers : timers = []) :
    ({ s with timers, backoff := .reset, state := .idle } : Supervisor).connect.Sound := by
  subst htimers
  exact Base.connect (h.change ⟨rfl, rfl, rfl, rfl⟩ (Nat.le_refl _) (h.not_stopped hstate) rfl
    (Or.inl rfl)) nofun rfl

/-- The reconnect timer of the state is the only one there is. -/
theorem Base.clearTimer_timers (h : s.Base) {timer : TimerId}
    (hstate : s.state = .reconnecting timer) :
    s.timers.erase timer = [] := by
  rw [h.timers, hstate]
  simp [ConnectionState.timers]

theorem Sound.start (h : s.Sound) (isFailed : Bool) : (s.start isFailed).Sound := by
  unfold Supervisor.start
  split
  · exact h
  rename_i hidle
  have hidle : s.state = .idle := not_not.mp hidle
  have htimers : s.timers = [] := by rw [h.timers, hidle]; rfl
  split
  · refine Sound.setStatus ?_ _
    have hsame : SameChains s { s with state := ConnectionState.failed } := ⟨rfl, rfl, rfl, rfl⟩
    refine ⟨h.change hsame (Nat.le_refl _) (h.not_stopped (by rw [hidle]; nofun)) htimers
      (Or.inl rfl), fun task htask hg => ?_, fun frame hframe hg => ?_⟩
    · have hfits := h.tasks task htask hg
      rw [hidle] at hfits
      cases task <;> simp_all [Task.Fits, Task.generation?]
    · have hfits := h.frames frame hframe hg
      rw [hidle] at hfits
      cases frame <;> simp_all [Frame.Fits, Frame.generation?]
  · exact h.connect (by rw [hidle]; nofun) htimers

theorem Sound.retry (h : s.Sound) : s.retry.Sound := by
  unfold Supervisor.retry
  split
  · rename_i hstate
    refine h.connectAgain (by rcases hstate with hstate | hstate <;> rw [hstate] <;> nofun) ?_
    rw [h.timers]
    rcases hstate with hstate | hstate <;> rw [hstate] <;> rfl
  · exact h

theorem Sound.useGrantedPort (h : s.Sound) : s.useGrantedPort.Sound := by
  unfold Supervisor.useGrantedPort
  split
  · exact h
  · exact h
  · exact h
  · rename_i timer hstate
    exact h.connectAgain (by rw [hstate]; nofun) (h.clearTimer_timers hstate)
  · rename_i hstopped _ _ hreconnecting
    refine h.connectAgain hstopped ?_
    rw [h.timers]
    cases hstate : s.state with
    | reconnecting timer => exact absurd hstate (hreconnecting timer)
    | _ => rfl

theorem Sound.followDevice (h : s.Sound) (matchesDevice : Bool) :
    (s.followDevice matchesDevice).Sound := by
  have hbase : ∀ state timers, timers = [] → s.state ≠ .stopped → state.timers = [] →
      ({ s with
          timers, generation := s.generation + 1, foundPort := none, foundPortDetached :=
            false, state } : Supervisor).Base :=
    fun state timers htimers hstate hprevious =>
      h.change ⟨rfl, rfl, rfl, rfl⟩ (Nat.le_succ _) (h.not_stopped hstate)
        (htimers.trans hprevious.symm) (Or.inl hprevious)
  have hidle : ∀ timers, timers = [] → s.state ≠ .stopped → ({ s with
      timers, generation := s.generation + 1, foundPort := none, foundPortDetached := false
      backoff := .reset, state := .idle } : Supervisor).connect.Sound :=
        fun timers htimers hstate =>
    (hbase .idle timers htimers hstate rfl).connectAgain nofun htimers
  have htimers := h.timers
  unfold Supervisor.followDevice
  cases hstate : s.state with
  | stopped => exact h
  | opening port openId =>
    rw [hstate] at htimers
    dsimp only
    split
    · exact h
    · exact (hbase (.opening port openId) s.timers htimers (by rw [hstate]; nofun) rfl).followNow
        nofun htimers _
  | «open» port openId =>
    rw [hstate] at htimers
    have hopen := hbase (.open port openId) s.timers htimers (by rw [hstate]; nofun) rfl
    have hfresh : ({ s with
        generation := s.generation + 1, foundPort := none, foundPortDetached := false
        state := .open port openId } : Supervisor).Fresh :=
          h.fresh_of_lt ⟨rfl, rfl, rfl, rfl⟩ (Nat.lt_succ_self _)
    dsimp only
    split
    · exact h
    split
    · exact Sound.callback ((hopen.sound_of_fresh hfresh).note ⟨rfl, rfl, rfl, rfl⟩ rfl rfl rfl)
        (Current.of_same (Current.of_fresh hfresh trivial) ⟨rfl, rfl, rfl, rfl⟩ rfl rfl)
          ⟨port, openId, rfl⟩ (Or.inl trivial) nofun
    · exact hopen.followNow nofun htimers _
  | reconnecting timer => exact hidle _ (h.clearTimer_timers hstate) (by rw [hstate]; nofun)
  | _ => exact hidle s.timers (by rw [htimers, hstate]; rfl) (by rw [hstate]; nofun)

/-- `#connect` reads of the state only that it is not stopped. -/
theorem Base.connectFrom (h : ({ s with state := .idle } : Supervisor).Base)
    (hstate : s.state ≠ .stopped)
    (htimers : s.timers = []) : s.connect.Sound := by
  have hconnect : s.connect = ({ s with state := .idle } : Supervisor).connect := by
    unfold Supervisor.connect
    rw [if_neg hstate, if_neg (fun h : ConnectionState.idle = .stopped => nomatch h)]
  rw [hconnect]
  exact h.connect nofun htimers

theorem Base.connectAfterTimer (h : s.Base) {timer : TimerId}
    (hstate : s.state = .reconnecting timer) (detached : Bool) :
    ({ s.clearTimer timer with foundPortDetached := detached } : Supervisor).connect.Sound := by
  have hne : s.state ≠ .stopped := by rw [hstate]; nofun
  have htimers := h.clearTimer_timers hstate
  exact Base.connectFrom (h.change ⟨rfl, rfl, rfl, rfl⟩ (Nat.le_refl _) (h.not_stopped hne) htimers
    (Or.inl rfl)) hne htimers

theorem Sound.handleDeviceConnected (h : s.Sound) : (s.handleDeviceConnected config).Sound := by
  have hnote : ({ s with foundPortDetached := false } : Supervisor).Sound :=
    h.note ⟨rfl, rfl, rfl, rfl⟩ rfl rfl rfl
  have htimers := h.timers
  unfold Supervisor.handleDeviceConnected
  dsimp only
  split
  · exact h.note ⟨rfl, rfl, rfl, rfl⟩ rfl rfl rfl
  · rename_i timer hstate
    exact h.connectAfterTimer hstate false
  · rename_i hstate
    rw [hstate] at htimers
    split
    · exact hnote
    · exact hnote.connectAgain (fun h => nomatch hstate.symm.trans h) htimers
  · rename_i hstate
    rw [hstate] at htimers
    exact hnote.connectAgain (fun h => nomatch hstate.symm.trans h) htimers
  · exact hnote

/-- No attempt is current while the supervisor waits for a permission. -/
theorem Sound.fresh_of_awaitingPermission (h : s.Sound) (hstate : s.state = .awaitingPermission)
    (hstack : s.stack = []) :
    s.Fresh := by
  intro hmem
  rcases mem_chains.mp hmem with ⟨task, htask, hg⟩ | ⟨frame, hframe, -⟩
  · rcases h.tasks task htask hg with hstopped | hfits
    · exact nomatch hstate.symm.trans hstopped
    · rw [hstate] at hfits
      cases task with
      | reading => exact nomatch hfits.choose_spec
      | stopDraining | stopTeardown | stopAnswered => exact nomatch hg
      | _ => exact nomatch hfits
  · rw [hstack] at hframe
    exact absurd hframe List.not_mem_nil

theorem Sound.handleDeviceDisconnected (h : s.Sound) (hstack : s.stack = [])
    (port : Option PortId) :
    (s.handleDeviceDisconnected config port).Sound := by
  have hnote : ({ s with foundPortDetached := true } : Supervisor).Sound :=
    h.note ⟨rfl, rfl, rfl, rfl⟩ rfl rfl rfl
  unfold Supervisor.handleDeviceDisconnected
  split
  · exact h
  dsimp only
  split
  · exact hnote.handleConnectionLoss hstack _ _
  · exact hnote.handleConnectionLoss hstack _ _
  · rename_i hstate
    have htimers := h.timers
    rw [hstate] at htimers
    exact hnote.recordFailedAttempt (hnote.fresh_of_awaitingPermission hstate hstack) (fun h =>
        nomatch hstate.symm.trans h)
      htimers hstack
  · exact hnote

theorem Sound.timerFired (h : s.Sound) {timer : TimerId} (htimer : timer ∈ s.timers) :
    (s.clearTimer timer).timerFired.Sound := by
  rw [h.timers] at htimer
  cases hstate : s.state with
  | reconnecting current =>
    rw [hstate] at htimer
    obtain rfl := List.mem_singleton.mp htimer
    have hfired : (s.clearTimer timer).timerFired = (s.clearTimer timer).connect := by
      unfold Supervisor.timerFired
      rw [show (s.clearTimer timer).state = .reconnecting timer from hstate]
    rw [hfired]
    exact h.connectAfterTimer hstate s.foundPortDetached
  | _ =>
    rw [hstate] at htimer
    exact absurd htimer List.not_mem_nil

theorem Sound.writeFailed (h : s.Sound) (hstack : s.stack = []) (openId : OpenId) :
    (s.writeFailed openId).Sound := by
  unfold Supervisor.writeFailed
  split
  · split
    · exact h.handleConnectionLoss hstack _ _
    · exact h
  · exact h

theorem Sound.readEnded (h : s.Sound) (hstack : s.stack = []) (code : SerialBrokerErrorCode) :
    (s.readEnded generation code).Sound := by
  unfold Supervisor.readEnded
  split
  · exact h
  · exact h.handleConnectionLoss hstack _ _

/-- What becomes of a call of `open()` says nothing of when it was made. -/
theorem Sound.setPhase (h : s.Sound) (openId : OpenId) (phase : OpenPhase) :
    (s.setPhase openId phase).Sound := by
  refine ⟨⟨h.stopped, h.timers, fun call hcall => ?_, h.le, h.nodup, h.began, h.order, h.held⟩,
    h.tasks, h.frames⟩
  obtain ⟨old, hold, rfl⟩ := KeyedList.mem_adjust.mp hcall
  have hold := h.opens old hold
  split
  · exact hold
  · exact hold

theorem Sound.closeStepEnded (h : s.Sound) {close : Closing} {how : StepEnd}
    (hended : s.closeStepEnded close how = some s') : s'.Sound := by
  have hstep : ∀ step, (s.enterStep close step).Sound :=
    fun _ => h.note ⟨rfl, rfl, rfl, rfl⟩ rfl rfl rfl
  have hrelease : ∀ lock step, ((s.releaseLock lock).enterStep close step).Sound := fun _ _ =>
    h.note ⟨rfl, rfl, rfl, rfl⟩ rfl rfl rfl
  have hfinish : (s.finishClose close).Sound := h.note ⟨rfl, rfl, rfl, rfl⟩ rfl rfl rfl
  have hclosed : ((s.setPhase close.openId .closed).finishClose close).Sound :=
    (h.setPhase _ _).note ⟨rfl, rfl, rfl, rfl⟩ rfl rfl rfl
  unfold Supervisor.closeStepEnded at hended
  split at hended
  · exact Option.some.inj hended ▸ hstep _
  · exact Option.some.inj hended ▸ hrelease _ _
  · exact Option.some.inj hended ▸ hrelease _ _
  · split at hended
    · exact Option.some.inj hended ▸ hstep _
    · exact Option.some.inj hended ▸ hstep _
    · exact Option.some.inj hended ▸ hstep _
    · exact Option.some.inj hended ▸ hfinish
    · exact nomatch hended
  · split at hended
    · exact Option.some.inj (Option.ite_none_left_eq_some.mp hended).2 ▸ hclosed
    · exact Option.some.inj hended ▸ hfinish

/-! ### every step -/

theorem Sound.perform (h : s.Sound) (call : SupervisorCall) : (s.perform call).Sound := by
  cases call with
  | start isFailed => exact h.start isFailed
  | stop => exact h.stop
  | retry => exact h.retry
  | useGrantedPort => exact h.useGrantedPort
  | followDevice matchesDevice => exact h.followDevice matchesDevice

theorem Sound.goOn {stack : List Frame} (h : s.Sound) (hstack : s.stack = frame :: stack)
    (hundisturbed : s.isUndisturbed .returned = true) :
    (({ s with stack } : Supervisor).goOn config frame).Sound := by
  obtain ⟨hpopped, hc, hbegan, horder⟩ := h.returned hstack
  have hheld : ∀ previous, frame = .stopFlushed previous → s.timers = [] := fun previous hframe =>
    h.held previous (hstack ▸ hframe ▸ List.mem_cons_self)
  unfold Supervisor.isUndisturbed at hundisturbed
  rw [hstack] at hundisturbed
  unfold Supervisor.goOn
  cases frame with
  | done => exact hpopped
  | connecting g => exact hpopped.findPort hc
  | openReported g openId => exact hpopped.wait hc
  | pushed g openId => exact hpopped.wait hc
  | lossFlushed previous code next =>
    obtain ⟨port, openId, rfl⟩ := hbegan
    exact hpopped.reportLoss (horder.resolve_left id) (.open port openId) ⟨nofun, rfl⟩ code next
  | lossReported previous next left =>
    obtain ⟨rfl, rfl⟩ : s.state = previous ∧ s.generation = left := by simpa using hundisturbed
    have htimers : s.timers = [] := by rw [h.timers, hbegan.2]
    exact hpopped.afterLoss (hc.le _ rfl).2 hbegan.1 htimers (horder.resolve_left id) s.state next
  | listingReported left =>
    obtain ⟨hlisting, rfl⟩ : s.state = .listing ∧ s.generation = left := by simpa using hundisturbed
    have htimers : s.timers = [] := by rw [h.timers, hlisting]; rfl
    exact hpopped.giveUp (hc.le _ rfl).2 (fun h => nomatch hlisting.symm.trans h) htimers
  | exhausted =>
    exact Sound.callback_done (hpopped.note ⟨rfl, rfl, rfl, rfl⟩ rfl rfl rfl)
  | followFlushed previous left =>
    obtain ⟨rfl, rfl⟩ : s.state = previous ∧ s.generation = left := by simpa using hundisturbed
    obtain ⟨port, openId, hopen⟩ := hbegan
    have htimers : s.timers = [] := by rw [h.timers, hopen]; rfl
    exact hpopped.followNow (fun h => nomatch hopen.symm.trans h) htimers s.state
  | stopFlushed previous =>
    obtain ⟨port, openId, rfl⟩ := hbegan
    exact hpopped.stopNow (.open port openId) (hheld _ rfl)
  | stopReported => exact hpopped.note ⟨rfl, rfl, rfl, rfl⟩ rfl rfl rfl

theorem Sound.resume (h : s.Sound) (hstack : s.stack = []) (htask : task ∈ s.tasks)
    (hundisturbed : s.isUndisturbed (.resume task answer) = true)
    (hresume : (s.resumed task).resume config task answer = some s') : s'.Sound := by
  obtain ⟨hresumed, hc⟩ := h.resumed htask
  have hstack' : (s.resumed task).stack = [] := hstack
  unfold Supervisor.resume at hresume
  split at hresume
  · rename_i g closes
    obtain ⟨-, hresume⟩ := Option.ite_none_right_eq_some.mp hresume
    obtain rfl := Option.some.inj hresume
    split
    · exact hresumed
    · exact hresumed.listPorts hc
  · exact Option.some.inj hresume ▸ hresumed.listed hc hstack' _
  · exact Option.some.inj hresume ▸ hresumed.listingFailed hc hstack' _
  · exact Option.some.inj hresume ▸ hresumed.listingFailed hc hstack' _
  · exact Option.some.inj hresume ▸ hresumed.openPort hc (of_decide_eq_true hundisturbed) _
  · exact Option.some.inj hresume ▸
      hresumed.openPortThrew hc hstack' (of_decide_eq_true hundisturbed) _ _
  · obtain ⟨-, hresume⟩ := Option.ite_none_right_eq_some.mp hresume
    obtain rfl := Option.some.inj hresume
    unfold openSucceeded
    split
    · exact hresumed
    · exact hresumed.wait hc
  · obtain ⟨-, hresume⟩ := Option.ite_none_right_eq_some.mp hresume
    exact Option.some.inj hresume ▸ hresumed.connectThrew hstack' _
  · exact Option.some.inj hresume ▸ hresumed.connectThrew hstack' _
  · exact Option.some.inj hresume ▸
      hresumed.startReading hc hstack' (of_decide_eq_true hundisturbed) _
  · exact Option.some.inj hresume ▸ hresumed.connectThrew hstack' _
  · exact Option.some.inj hresume ▸ (hresumed.lockStreams _).connectThrew hstack' _
  · exact Option.some.inj hresume ▸ hresumed.readChunk hc hstack' _
  · exact Option.some.inj hresume ▸ hresumed.readEnded hstack' _
  · exact Option.some.inj hresume ▸ hresumed.readEnded hstack' _
  · exact Option.some.inj hresume ▸ hresumed.stopDrained _
  · obtain ⟨-, hresume⟩ := Option.ite_none_right_eq_some.mp hresume
    exact Option.some.inj hresume ▸ hresumed.wait .of_none
  · exact Option.some.inj hresume ▸ hresumed.stopEnd hstack'
  · exact nomatch hresume

theorem Sound.react (h : s.Sound) (hstack : s.stack = [])
    (hundisturbed : s.isUndisturbed event = true)
    (hreact : s.react config event = some s') : s'.Sound := by
  unfold Supervisor.react at hreact
  split at hreact
  · rename_i task answer
    obtain ⟨htask, hresume⟩ := Option.ite_none_right_eq_some.mp hreact
    exact h.resume hstack htask hundisturbed hresume
  · rename_i timer
    obtain ⟨htimer, hfired⟩ := Option.ite_none_right_eq_some.mp hreact
    exact Option.some.inj hfired ▸ h.timerFired htimer
  · obtain ⟨-, hflushed⟩ := Option.ite_none_right_eq_some.mp hreact
    obtain rfl := Option.some.inj hflushed
    exact Sound.callback_done (h.note ⟨rfl, rfl, rfl, rfl⟩ rfl rfl rfl)
  · exact Option.some.inj hreact ▸ h.writeFailed hstack _
  · exact Option.some.inj hreact ▸ h.handleDeviceConnected
  · exact Option.some.inj hreact ▸ h.handleDeviceDisconnected hstack _
  · obtain ⟨-, hsettled⟩ := Option.ite_none_right_eq_some.mp hreact
    exact Option.some.inj hsettled ▸ h.setPhase _ _
  · obtain ⟨close, -, hended⟩ := Option.bind_eq_some_iff.mp hreact
    exact h.closeStepEnded hended
  · split at hreact
    · obtain ⟨-, hforgotten⟩ := Option.ite_none_right_eq_some.mp hreact
      exact Option.some.inj hforgotten ▸ h.note ⟨rfl, rfl, rfl, rfl⟩ rfl rfl rfl
    · exact nomatch hreact
  · exact Option.some.inj hreact ▸ h.note ⟨rfl, rfl, rfl, rfl⟩ rfl rfl rfl
  · exact nomatch hreact
  · exact nomatch hreact

theorem Sound.step (h : s.Sound) (hundisturbed : s.isUndisturbed event = true)
    (hstep : s.step config event = some s') :
    s'.Sound := by
  unfold Supervisor.step at hstep
  split at hstep
  · exact Option.some.inj hstep ▸ h.perform _
  · split at hstep
    · exact nomatch hstep
    · rename_i frame stack hstack
      exact Option.some.inj hstep ▸ h.goOn hstack hundisturbed
  · obtain ⟨hstack, hreact⟩ := Option.ite_none_right_eq_some.mp hstep
    exact h.react hstack hundisturbed hreact

end Supervisor

end SerialBroker
