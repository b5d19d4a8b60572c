import Mathlib
import SerialBroker.Owner.Teardown

/-!
# Stopping always succeeds

Every wait of a close has a deadline, so as long as no call throws at once, a close is over within
four of them, whatever its steps do: that bounds `stop()`, which waits for all the closes there are
after at most one wait of its own, and an attempt to connect, which waits for them first. The
promise of a close whose call throws rejects, and everything that waits for it with it.
-/

namespace SerialBroker

namespace Teardown

/-- How many waits of a close are over at the latest when this one is. -/
def CloseStep.place : CloseStep → Nat
  | .draining => 1
  | .cancelling => 2
  | .aborting | .waitingForOpen => 3
  | .closing => 4

/-- What has been called when a close waits for this step. -/
def callsBefore (isOpening : Bool) : CloseStep → List CloseCall
  | .draining | .waitingForOpen => []
  | .cancelling => [.cancel]
  | .aborting => [.cancel, .releaseReader, .abort]
  | .closing =>
    if isOpening then [.close] else [.cancel, .releaseReader, .abort, .releaseWriter, .close]

/-- Every call of a close has been made; a port whose `open()` failed is not closed. -/
def IsComplete (close : PortClose) : Prop :=
  close.calls = callsBefore close.isOpening .closing ∨ close.isOpening = true ∧ close.calls = [] ∧
    close.ends = [.rejected]

variable (config : WaitConfig)

/-- What holds of a close while nothing has thrown. -/
structure SoundClose (now : Nat) (close : PortClose) : Prop where
  begun : close.begun ≤ now
  unthrown : close.phase ≠ .threw
  finished : close.phase = .finished → IsComplete close
  waiting : ∀ step due, close.phase = .waiting step due →
    now ≤ due ∧ due ≤ close.begun + CloseStep.place step * config.openTimeoutMs ∧
    close.calls = callsBefore close.isOpening step ∧
      (step = .waitingForOpen → close.isOpening = true ∧ close.ends = []) ∧
    (close.isOpening = true → step = .waitingForOpen ∨ step = .closing)

/-- Everything that is waited for was begun at this time at the latest. -/
def BegunBy (s : Teardown) (time : Nat) (closes : List CloseId) : Prop :=
  ∀ id ∈ closes, ∃ close ∈ s.closes, close.id = id ∧ close.begun ≤ time

structure SoundStop (s : Teardown) (stop : StopRun) : Prop where
  begun : stop.begun ≤ s.monotonicNow
  unrejected : stop.phase ≠ .rejected
  draining : ∀ due, stop.phase = .draining due →
    s.monotonicNow ≤ due ∧ due ≤ stop.begun + config.openTimeoutMs
  awaiting : ∀ closes, stop.phase = .awaitingTeardown closes →
    BegunBy s (stop.begun + config.openTimeoutMs) closes ∧
    s.monotonicNow ≤ stop.begun + 5 * config.openTimeoutMs
  answering : ∀ due, stop.phase = .answering due → s.monotonicNow ≤ due ∧
    due ≤ stop.begun + 5 * config.openTimeoutMs + config.writeTimeoutMs

structure SoundAttempt (s : Teardown) (attempt : ConnectAttempt) : Prop where
  begun : attempt.begun ≤ s.monotonicNow
  unthrown : attempt.phase ≠ .threw
  awaiting : ∀ closes, attempt.phase = .awaitingTeardown closes → BegunBy s attempt.begun closes ∧
    s.monotonicNow ≤ attempt.begun + 4 * config.openTimeoutMs

/-- What holds in every state while nothing has thrown. -/
structure Sound (s : Teardown) : Prop where
  closeIds : s.closes.map PortClose.id = List.range s.closes.length
  stopIds : s.stops.map StopRun.id = List.range s.stops.length
  attemptIds : s.attempts.map ConnectAttempt.id = List.range s.attempts.length
  closes : ∀ close ∈ s.closes, SoundClose config s.monotonicNow close
  teardown : ∀ closes, s.teardown = some closes → BegunBy s s.monotonicNow closes
  stops : ∀ stop ∈ s.stops, SoundStop config s stop
  attempts : ∀ attempt ∈ s.attempts, SoundAttempt config s attempt

variable {config} {s s' : Teardown} {time time' now : Nat} {closes : List CloseId}

theorem Sound.distinct (h : Sound config s) : KeyedList.Distinct PortClose.id s.closes := by
  rw [KeyedList.Distinct, h.closeIds]
  exact List.nodup_range

theorem BegunBy.mono (h : BegunBy s time closes) (hle : time ≤ time') : BegunBy s time' closes := by
  intro id hid
  obtain ⟨close, hclose, heq, hbegun⟩ := h id hid
  exact ⟨close, hclose, heq, hbegun.trans hle⟩

/-- A list of closes in which those of the other are kept, as far as their number and their
beginning go. -/
def Keeps (s s' : Teardown) : Prop :=
  ∀ close ∈ s.closes, ∃ close' ∈ s'.closes, close'.id = close.id ∧ close'.begun = close.begun

theorem BegunBy.keeps (h : BegunBy s time closes) (hkeeps : Keeps s s') :
    BegunBy s' time closes := by
  intro id hid
  obtain ⟨close, hclose, heq, hbegun⟩ := h id hid
  obtain ⟨close', hclose', hid', hbegun'⟩ := hkeeps close hclose
  exact ⟨close', hclose', hid'.trans heq, hbegun'.trans_le hbegun⟩

theorem SoundStop.keeps {stop : StopRun} (h : SoundStop config s stop) (hkeeps : Keeps s s')
    (hnow : s'.monotonicNow = s.monotonicNow) :
    SoundStop config s' stop := by
  refine ⟨hnow ▸ h.begun, h.unrejected, ?_, ?_, ?_⟩
  · rw [hnow]
    exact h.draining
  · intro closes hphase
    obtain ⟨hby, hle⟩ := h.awaiting closes hphase
    exact ⟨hby.keeps hkeeps, hnow ▸ hle⟩
  · rw [hnow]
    exact h.answering

theorem SoundAttempt.keeps {attempt : ConnectAttempt} (h : SoundAttempt config s attempt)
    (hkeeps : Keeps s s')
    (hnow : s'.monotonicNow = s.monotonicNow) : SoundAttempt config s' attempt := by
  refine ⟨hnow ▸ h.begun, h.unthrown, ?_⟩
  intro closes hphase
  obtain ⟨hby, hle⟩ := h.awaiting closes hphase
  exact ⟨hby.keeps hkeeps, hnow ▸ hle⟩

/-! ### closes -/

theorem soundClose_of_finished {close : PortClose} (hbegun : close.begun ≤ now)
    (hphase : close.phase = .finished)
    (hcomplete : IsComplete close) : SoundClose config now close := by
  refine ⟨hbegun, ?_, fun _ => hcomplete, ?_⟩
  · rw [hphase]
    exact ClosePhase.noConfusion
  · intro step due hwaiting
    rw [hphase] at hwaiting
    cases hwaiting

theorem soundClose_of_waiting {close : PortClose} {step : CloseStep} {due : Nat}
    (hbegun : close.begun ≤ now)
    (hphase : close.phase = .waiting step due)
    (hdue : now ≤ due ∧ due ≤ close.begun + CloseStep.place step * config.openTimeoutMs)
    (hcalls : close.calls = callsBefore close.isOpening step)
    (hkind : step = .waitingForOpen → close.isOpening = true ∧ close.ends = [])
    (hopening : close.isOpening = true → step = .waitingForOpen ∨ step = .closing) :
    SoundClose config now close := by
  refine ⟨hbegun, ?_, ?_, ?_⟩
  · rw [hphase]
    exact ClosePhase.noConfusion
  · intro hfinished
    rw [hphase] at hfinished
    cases hfinished
  · intro step' due' hwaiting
    rw [hphase] at hwaiting
    cases hwaiting
    exact ⟨hdue.1, hdue.2, hcalls, hkind, hopening⟩

/-- A close that has just begun. -/
theorem soundClose_begun (id : CloseId) (step : CloseStep)
    (hstep : step ≠ .aborting ∧ step ≠ .closing) :
    SoundClose config now ⟨id, step = .waitingForOpen, now,
      .waiting step (now + config.openTimeoutMs),
      if step = .cancelling then [CloseCall.cancel] else [], []⟩ := by
  refine soundClose_of_waiting (Nat.le_refl _) rfl ⟨Nat.le_add_right _ _, ?_⟩ ?_ ?_ ?_
  · have hplace : 1 ≤ CloseStep.place step := by cases step <;> decide
    exact Nat.add_le_add_left (Nat.le_mul_of_pos_left _ hplace) _
  · cases step with
    | draining | waitingForOpen | cancelling => rfl
    | aborting => exact absurd rfl hstep.1
    | closing => exact absurd rfl hstep.2
  · rintro rfl
    exact ⟨rfl, rfl⟩
  · exact fun hopening => Or.inl (of_decide_eq_true hopening)

theorem Sound.trackTeardown (h : Sound config s) (step : CloseStep)
    (hstep : step ≠ .aborting ∧ step ≠ .closing) :
    Sound config (s.trackTeardown config step false) := by
  have hkeeps : Keeps s (s.trackTeardown config step false) := fun close hclose =>
    ⟨close, List.mem_append_left _ hclose, rfl, rfl⟩
  refine ⟨?_, h.stopIds, h.attemptIds, ?_, ?_, fun stop hstop =>
    (h.stops stop hstop).keeps hkeeps rfl,
    fun attempt hattempt => (h.attempts attempt hattempt).keeps hkeeps rfl⟩
  · change (s.closes ++ [_]).map PortClose.id = List.range (s.closes ++ [_]).length
    rw [List.map_append, h.closeIds, List.length_append, List.length_singleton, List.range_succ]
    rfl
  · intro close hclose
    rcases List.mem_append.mp hclose with hclose | hclose
    · exact h.closes close hclose
    · rw [List.mem_singleton.mp hclose]
      exact soundClose_begun _ step hstep
  · intro closes hcloses id hid
    obtain rfl : s.teardown.getD [] ++ [s.closes.length] = closes := Option.some.inj hcloses
    rcases List.mem_append.mp hid with hid | hid
    · cases hteardown : s.teardown with
      | none =>
        rw [hteardown] at hid
        cases hid
      | some closes =>
        rw [hteardown] at hid
        exact (h.teardown closes hteardown).keeps hkeeps id hid
    · exact ⟨_, List.mem_append_right _ (List.mem_singleton_self _),
        (List.mem_singleton.mp hid).symm, Nat.le_refl _⟩

theorem Sound.closeLost (h : Sound config s) (previous : ConnectionState) (step : CloseStep)
    (hstep : step ≠ .aborting ∧ step ≠ .closing) :
    Sound config (s.closeLost config previous step false) := by
  unfold Teardown.closeLost
  split
  · exact h.trackTeardown step hstep
  · exact h.trackTeardown .waitingForOpen (by decide)
  · exact h

/-- The next wait of a close that nothing has thrown at. -/
theorem SoundClose.nextWait {close : PortClose} {step next : CloseStep} {due : Nat}
    (h : SoundClose config now close)
    (hphase : close.phase = .waiting step due) (hnext : step.next = some next) :
    now ≤ now + config.openTimeoutMs ∧
      now + config.openTimeoutMs ≤ close.begun + CloseStep.place next * config.openTimeoutMs := by
  obtain ⟨hnow, hdue, -⟩ := h.waiting step due hphase
  have hplace : CloseStep.place next = CloseStep.place step + 1 := by
    cases step with
    | closing => cases hnext
    | draining | cancelling | aborting | waitingForOpen =>
      cases hnext
      rfl
  rw [hplace, Nat.succ_mul]
  omega

theorem SoundClose.endStep {close : PortClose} {step : CloseStep} {due : Nat}
    (h : SoundClose config now close)
    (hphase : close.phase = .waiting step due) (how : StepEnd) :
    SoundClose config now { close with
      phase := nextPhase config now step how false, calls :=
        close.calls ++ nextCalls step how, ends := close.ends ++ [how] } := by
  obtain ⟨hnow, hdue, hcalls, hwaiting, hopening⟩ := h.waiting step due hphase
  cases step with
  | waitingForOpen =>
    obtain ⟨hkind, hends⟩ := hwaiting rfl
    cases how with
    | rejected =>
      -- an `open()` that failed: nothing is left to close
      refine soundClose_of_finished h.begun rfl (Or.inr ⟨hkind, ?_, ?_⟩)
      · rw [hcalls]
        rfl
      · rw [hends]
        rfl
    | settled | timedOut =>
      refine soundClose_of_waiting h.begun rfl (h.nextWait hphase rfl) ?_ (fun heq =>
        CloseStep.noConfusion heq) fun _ => Or.inr rfl
      rw [hcalls, hkind]
      rfl
  | closing =>
    refine soundClose_of_finished h.begun rfl (Or.inl ?_)
    rw [hcalls]
    exact List.append_nil _
  | draining | cancelling =>
    have hkind : close.isOpening = false := by
      by_contra hopens
      rcases hopening (by simpa using hopens) with heq | heq
      · cases heq
      · cases heq
    refine soundClose_of_waiting h.begun rfl (h.nextWait hphase rfl) ?_ (fun heq =>
      CloseStep.noConfusion heq) fun hopens => ?_
    · rw [hcalls]
      rfl
    · exact absurd (hkind.symm.trans hopens) Bool.false_ne_true
  | aborting =>
    have hkind : close.isOpening = false := by
      by_contra hopens
      rcases hopening (by simpa using hopens) with heq | heq
      · cases heq
      · cases heq
    refine soundClose_of_waiting h.begun rfl (h.nextWait hphase rfl) ?_ (fun heq =>
      CloseStep.noConfusion heq) fun _ => Or.inr rfl
    rw [hcalls, hkind]
    rfl

theorem keeps_refl (s : Teardown) : Keeps s s := fun close hclose => ⟨close, hclose, rfl, rfl⟩

theorem keeps_endStep {id : CloseId} {step : CloseStep} {how : StepEnd} {isThrown : Bool} :
    Keeps s (s.endStep config id step how isThrown) := by
  intro close hclose
  refine ⟨_, KeyedList.mem_adjust.mpr ⟨close, hclose, rfl⟩, ?_, ?_⟩
  · split
    · rfl
    · rfl
  · split
    · rfl
    · rfl

theorem Sound.endStep (h : Sound config s) {close : PortClose} {step : CloseStep} {due : Nat}
    (hclose : close ∈ s.closes)
    (hphase : close.phase = .waiting step due) (how : StepEnd) :
    Sound config (s.endStep config close.id step how false) := by
  have hkeeps : Keeps s (s.endStep config close.id step how false) := keeps_endStep
  have hids : (s.endStep config close.id step how false).closes.map PortClose.id = s.closes.map
      PortClose.id :=
    KeyedList.map_adjust fun c => rfl
  have hlength : (s.endStep config close.id step how false).closes.length = s.closes.length :=
    List.length_map ..
  refine ⟨?_, h.stopIds, h.attemptIds, ?_, fun closes hcloses =>
    (h.teardown closes hcloses).keeps hkeeps,
    fun stop hstop => (h.stops stop hstop).keeps hkeeps rfl, fun attempt hattempt =>
    (h.attempts attempt hattempt).keeps hkeeps rfl⟩
  · rw [hids, hlength]
    exact h.closeIds
  · intro close' hclose'
    obtain ⟨c, hc, rfl⟩ := KeyedList.mem_adjust.mp hclose'
    split
    · next hid =>
      obtain rfl := h.distinct.eq_of_mem hc hclose hid
      exact (h.closes c hc).endStep hphase how
    · exact h.closes c hc

/-! ### what waits for the closes -/

theorem Sound.setStop (h : Sound config s) {id : StopId} {phase : StopPhase}
    (hsound : ∀ stop ∈ s.stops, stop.id = id → SoundStop config s { stop with phase }) :
    Sound config (s.setStop id phase) := by
  have hids : (s.setStop id phase).stops.map StopRun.id = s.stops.map StopRun.id :=
    KeyedList.map_adjust fun stop => rfl
  have hlength : (s.setStop id phase).stops.length = s.stops.length := List.length_map ..
  refine ⟨h.closeIds, ?_, h.attemptIds, h.closes, h.teardown, ?_, fun attempt hattempt =>
    (h.attempts attempt hattempt).keeps (keeps_refl s) rfl⟩
  · rw [hids, hlength]
    exact h.stopIds
  · intro stop' hstop'
    obtain ⟨stop, hstop, rfl⟩ := KeyedList.mem_adjust.mp hstop'
    split
    · next hid => exact (hsound stop hstop hid).keeps (keeps_refl s) rfl
    · exact (h.stops stop hstop).keeps (keeps_refl s) rfl

theorem Sound.addStop (h : Sound config s) {phase : StopPhase}
    (hsound : SoundStop config s ⟨s.stops.length, s.monotonicNow, phase⟩) :
    Sound config { s with stops := s.stops ++ [⟨s.stops.length, s.monotonicNow, phase⟩] } := by
  refine ⟨h.closeIds, ?_, h.attemptIds, h.closes, h.teardown, ?_, fun attempt hattempt =>
    (h.attempts attempt hattempt).keeps (keeps_refl s) rfl⟩
  · change (s.stops ++ [_]).map StopRun.id = List.range (s.stops ++ [_]).length
    rw [List.map_append, h.stopIds, List.length_append, List.length_singleton, List.range_succ]
    rfl
  · intro stop hstop
    rcases List.mem_append.mp hstop with hstop | hstop
    · exact (h.stops stop hstop).keeps (keeps_refl s) rfl
    · rw [List.mem_singleton.mp hstop]
      exact hsound.keeps (keeps_refl s) rfl

/-- The closes a promise stands for that is read now. -/
theorem Sound.begunBy_teardown (h : Sound config s) :
    BegunBy s s.monotonicNow (s.teardown.getD []) := by
  cases hteardown : s.teardown with
  | none => exact fun id hid => absurd hid List.not_mem_nil
  | some closes => exact h.teardown closes hteardown

/-- `stop()` waits for the closes there are, begun within one wait of its own. -/
theorem soundStop_awaiting (stop : StopRun) (hby : BegunBy s s.monotonicNow closes)
    (hbegun : stop.begun ≤ s.monotonicNow)
    (hle : s.monotonicNow ≤ stop.begun + config.openTimeoutMs) :
    SoundStop config s { stop with phase := .awaitingTeardown closes } := by
  refine ⟨hbegun, StopPhase.noConfusion, fun due heq => ?_, fun closes' heq => ?_,
    fun due heq => ?_⟩
  · cases heq
  · cases heq
    refine ⟨hby.mono hle, ?_⟩
    change s.monotonicNow ≤ stop.begun + 5 * config.openTimeoutMs
    omega
  · cases heq

theorem soundStop_resolved {stop : StopRun} (hbegun : stop.begun ≤ s.monotonicNow) :
    SoundStop config s { stop with phase := .resolved } := by
  refine ⟨hbegun, StopPhase.noConfusion, fun due heq => ?_, fun closes heq => ?_, fun due heq => ?_⟩
  · cases heq
  · cases heq
  · cases heq

theorem Sound.stop (h : Sound config s) (previous : ConnectionState) :
    Sound config (s.stop config previous) := by
  have hwait : Sound config (s.closeLost config previous .cancelling false) :=
    h.closeLost previous .cancelling (by decide)
  unfold Teardown.stop
  split
  · refine h.addStop ⟨Nat.le_refl _, StopPhase.noConfusion, fun due heq => ?_, fun closes heq => ?_,
      fun due heq => ?_⟩
    · cases heq
      exact ⟨Nat.le_add_right _ _, Nat.le_refl _⟩
    · cases heq
    · cases heq
  · refine hwait.addStop ?_
    exact soundStop_awaiting ⟨_, _, .resolved⟩ hwait.begunBy_teardown (Nat.le_refl _)
      (Nat.le_add_right _ _)

theorem Sound.stopDrained (h : Sound config s) {id : StopId} {due : Nat}
    (hdraining : (KeyedList.lookup StopRun.id id s.stops).map
      StopRun.phase = some (.draining due)) :
    Sound config (s.stopDrained config id false) := by
  have hdistinct : KeyedList.Distinct StopRun.id s.stops := by
    rw [KeyedList.Distinct, h.stopIds]
    exact List.nodup_range
  obtain ⟨stop, hfound, hphase⟩ := Option.map_eq_some_iff.mp hdraining
  obtain ⟨hmem, rfl⟩ := hdistinct.lookup_iff.mp hfound
  obtain ⟨hnow, hdue⟩ := (h.stops stop hmem).draining due hphase
  have hclosed := h.trackTeardown .cancelling (by decide)
  refine hclosed.setStop fun stop' hstop' hid => ?_
  obtain rfl := hdistinct.eq_of_mem hstop' hmem hid
  exact soundStop_awaiting stop' hclosed.begunBy_teardown (h.stops stop' hmem).begun
    (hnow.trans hdue)

/-- Without a call that throws, no promise of closes rejects. -/
theorem Sound.not_hasThrown (h : Sound config s) (closes : List CloseId) :
    s.hasThrown closes = false := by
  unfold Teardown.hasThrown
  refine List.any_eq_false.mpr fun id _ => ?_
  simp only [decide_eq_true_eq]
  intro hthrew
  obtain ⟨close, hfound, hphase⟩ := Option.map_eq_some_iff.mp hthrew
  exact (h.closes close (KeyedList.mem_of_lookup hfound)).unthrown hphase

/-- While a promise of closes is pending, one of the closes waits. -/
theorem Sound.exists_waiting (h : Sound config s) (hby : BegunBy s time closes)
    (hpending : s.hasFinished closes = false) :
    ∃ close ∈ s.closes, close.begun ≤ time ∧ ∃ step due, close.phase = .waiting step due := by
  obtain ⟨id, hid, hnot⟩ := List.all_eq_false.mp hpending
  obtain ⟨close, hclose, rfl, hbegun⟩ := hby id hid
  refine ⟨close, hclose, hbegun, ?_⟩
  cases hphase : close.phase with
  | waiting step due => exact ⟨step, due, rfl⟩
  | threw => exact absurd hphase (h.closes close hclose).unthrown
  | finished =>
    refine absurd ?_ hnot
    rw [phase?, h.distinct.lookup hclose, Option.map_some, hphase]
    rfl

theorem place_le (step : CloseStep) : CloseStep.place step ≤ 4 := by
  cases step <;> decide

/-- A close that waits is within four waits of its beginning. -/
theorem SoundClose.due_le {close : PortClose} {step : CloseStep} {due : Nat}
    (h : SoundClose config now close)
    (hphase : close.phase = .waiting step due) : due ≤ close.begun + 4 * config.openTimeoutMs := by
  obtain ⟨-, hdue, -⟩ := h.waiting step due hphase
  have hmul := Nat.mul_le_mul_right config.openTimeoutMs (place_le step)
  omega

theorem Sound.tick (h : Sound config s) {ms : Nat} (hpass : s.canPass ms = true) :
    Sound config { s with monotonicNow := s.monotonicNow + ms } := by
  unfold Teardown.canPass at hpass
  simp only [Bool.and_eq_true, List.all_eq_true] at hpass
  obtain ⟨⟨hcloses, hstops⟩, hattempts⟩ := hpass
  have hlate : ∀ {time closes}, BegunBy s time closes →
      (!s.hasThrown closes && !s.hasFinished closes) = true →
      s.monotonicNow + ms ≤ time + 4 * config.openTimeoutMs := by
    intro time closes hby hpending
    obtain ⟨-, hpending⟩ := Bool.and_eq_true_iff.mp hpending
    obtain ⟨close, hclose, hbegun, step, due, hphase⟩ :=
      h.exists_waiting hby (by simpa using hpending)
    have hdue := (h.closes close hclose).due_le hphase
    have hpasses := hcloses close hclose
    rw [hphase] at hpasses
    have hpasses : s.monotonicNow + ms ≤ due := of_decide_eq_true hpasses
    omega
  refine ⟨h.closeIds, h.stopIds, h.attemptIds, ?_, ?_, ?_, ?_⟩
  · intro close hclose
    obtain ⟨hbegun, hunthrown, hfinished, hwaiting⟩ := h.closes close hclose
    refine ⟨Nat.le_trans hbegun (Nat.le_add_right _ _), hunthrown, hfinished,
      fun step due hphase => ?_⟩
    obtain ⟨-, hrest⟩ := hwaiting step due hphase
    have hpasses := hcloses close hclose
    rw [hphase] at hpasses
    exact ⟨of_decide_eq_true hpasses, hrest⟩
  · exact fun closes hteardown =>
      BegunBy.mono (s := s) (h.teardown closes hteardown) (Nat.le_add_right _ _)
  · intro stop hstop
    obtain ⟨hbegun, hunrejected, hdraining, hawaiting, hanswering⟩ := h.stops stop hstop
    have hpasses := hstops stop hstop
    refine ⟨Nat.le_trans hbegun (Nat.le_add_right _ _), hunrejected, fun due hphase => ?_,
      fun closes hphase => ?_, fun due hphase => ?_⟩
    · rw [hphase] at hpasses
      exact ⟨of_decide_eq_true hpasses, (hdraining due hphase).2⟩
    · rw [hphase] at hpasses
      have hby := (hawaiting closes hphase).1
      have hle := hlate hby hpasses
      refine ⟨hby, ?_⟩
      change s.monotonicNow + ms ≤ _
      omega
    · rw [hphase] at hpasses
      exact ⟨of_decide_eq_true hpasses, (hanswering due hphase).2⟩
  · intro attempt hattempt
    obtain ⟨hbegun, hunthrown, hawaiting⟩ := h.attempts attempt hattempt
    have hpasses := hattempts attempt hattempt
    refine ⟨Nat.le_trans hbegun (Nat.le_add_right _ _), hunthrown, fun closes hphase => ?_⟩
    rw [hphase] at hpasses
    have hby := (hawaiting closes hphase).1
    exact ⟨hby, hlate hby hpasses⟩

/-- Whether a call of this event throws at once instead of returning a promise. -/
def throwsAtOnce : TeardownEvent → Bool
  | .left _ _ isThrown | .closeStep _ _ isThrown | .drained _ _ isThrown => isThrown
  | _ => false

theorem distinct_stops (hids : s.stops.map StopRun.id = List.range s.stops.length) :
    KeyedList.Distinct StopRun.id s.stops := by
  rw [KeyedList.Distinct, hids]
  exact List.nodup_range

theorem distinct_attempts (hids : s.attempts.map ConnectAttempt.id = List.range s.attempts.length) :
    KeyedList.Distinct ConnectAttempt.id s.attempts := by
  rw [KeyedList.Distinct, hids]
  exact List.nodup_range

theorem Sound.attempt (h : Sound config s) : Sound config s.findPort := by
  refine ⟨h.closeIds, h.stopIds, ?_, h.closes, h.teardown,
    fun stop hstop => (h.stops stop hstop).keeps (keeps_refl s) rfl, ?_⟩
  · change (s.attempts ++ [_]).map ConnectAttempt.id = List.range (s.attempts ++ [_]).length
    rw [List.map_append, h.attemptIds, List.length_append, List.length_singleton, List.range_succ]
    rfl
  · intro attempt hattempt
    rcases List.mem_append.mp hattempt with hattempt | hattempt
    · exact (h.attempts attempt hattempt).keeps (keeps_refl s) rfl
    · rw [List.mem_singleton.mp hattempt]
      cases hteardown : s.teardown with
      | none =>
        exact ⟨Nat.le_refl _, AttemptPhase.noConfusion, fun closes heq =>
          AttemptPhase.noConfusion heq⟩
      | some closes =>
        refine ⟨Nat.le_refl _, AttemptPhase.noConfusion, fun closes' heq => ?_⟩
        cases heq
        exact ⟨h.teardown closes hteardown, Nat.le_add_right _ _⟩

theorem Sound.setAttempt (h : Sound config s) (id : AttemptId) :
    Sound config (s.setAttempt id .wentOn) := by
  have hids : (s.setAttempt id .wentOn).attempts.map ConnectAttempt.id = s.attempts.map
      ConnectAttempt.id :=
    KeyedList.map_adjust fun attempt => rfl
  have hlength : (s.setAttempt id .wentOn).attempts.length = s.attempts.length := List.length_map ..
  refine ⟨h.closeIds, h.stopIds, ?_, h.closes, h.teardown,
    fun stop hstop => (h.stops stop hstop).keeps (keeps_refl s) rfl, ?_⟩
  · rw [hids, hlength]
    exact h.attemptIds
  · intro attempt' hattempt'
    obtain ⟨attempt, hattempt, rfl⟩ := KeyedList.mem_adjust.mp hattempt'
    split
    · exact ⟨(h.attempts attempt hattempt).begun, AttemptPhase.noConfusion, fun closes heq =>
        AttemptPhase.noConfusion heq⟩
    · exact (h.attempts attempt hattempt).keeps (keeps_refl s) rfl

/-- What a stop whose closes are over goes on to. -/
theorem Sound.stopGoesOn (h : Sound config s) {id : StopId} {isAnswered : Bool}
    (hawaiting : (KeyedList.lookup StopRun.id id s.stops).map
      StopRun.phase = some (.awaitingTeardown closes)) :
    Sound config (s.setStop id (if isAnswered then .resolved
      else .answering (s.monotonicNow + config.writeTimeoutMs))) := by
  obtain ⟨stop, hfound, hphase⟩ := Option.map_eq_some_iff.mp hawaiting
  obtain ⟨hmem, rfl⟩ := (distinct_stops h.stopIds).lookup_iff.mp hfound
  refine h.setStop fun stop' hstop' hid => ?_
  obtain rfl := (distinct_stops h.stopIds).eq_of_mem hstop' hmem hid
  obtain ⟨hbegun, -, -, hby, -⟩ := h.stops stop' hmem
  obtain ⟨-, hle⟩ := hby closes hphase
  cases isAnswered with
  | true => exact soundStop_resolved hbegun
  | false =>
    refine ⟨hbegun, StopPhase.noConfusion, fun due heq => ?_, fun closes heq => ?_,
      fun due heq => ?_⟩
    · cases heq
    · cases heq
    · cases heq
      exact ⟨Nat.le_add_right _ _, Nat.add_le_add_right hle _⟩

theorem Sound.step (h : Sound config s) {event : TeardownEvent} (hcalm : throwsAtOnce event = false)
    (hstep : s.step config event = some s') : Sound config s' := by
  cases event with
  | left previous isAfterWrites isThrown =>
    obtain rfl : isThrown = false := hcalm
    cases hstep
    refine h.closeLost previous _ ?_
    cases isAfterWrites <;> decide
  | stop previous =>
    cases hstep
    exact h.stop previous
  | attempt =>
    cases hstep
    exact h.attempt
  | closeStep id how isThrown =>
    obtain rfl : isThrown = false := hcalm
    simp only [Teardown.step] at hstep
    split at hstep
    · next step due hfound =>
      split at hstep
      · cases hstep
      · cases hstep
        obtain ⟨close, hclose, hphase⟩ := Option.map_eq_some_iff.mp hfound
        obtain ⟨hmem, rfl⟩ := h.distinct.lookup_iff.mp hclose
        exact h.endStep hmem hphase how
    · cases hstep
  | drained id isTimeout isThrown =>
    obtain rfl : isThrown = false := hcalm
    simp only [Teardown.step] at hstep
    split at hstep
    · next due hfound =>
      split at hstep
      · cases hstep
      · cases hstep
        exact h.stopDrained hfound
    · cases hstep
  | stopGoesOn id isAnswered =>
    simp only [Teardown.step, h.not_hasThrown] at hstep
    split at hstep
    · next closes hfound =>
      split at hstep
      · next hthrown => exact absurd hthrown Bool.false_ne_true
      · split at hstep
        · cases hstep
          exact h.stopGoesOn hfound
        · cases hstep
    · cases hstep
  | answered id isTimeout =>
    simp only [Teardown.step] at hstep
    split at hstep
    · split at hstep
      · cases hstep
      · cases hstep
        exact h.setStop fun stop hstop _ => soundStop_resolved (h.stops stop hstop).begun
    · cases hstep
  | attemptGoesOn id =>
    simp only [Teardown.step, h.not_hasThrown] at hstep
    split at hstep
    · split at hstep
      · next hthrown => exact absurd hthrown Bool.false_ne_true
      · split at hstep
        · cases hstep
          exact h.setAttempt id
        · cases hstep
    · cases hstep
  | teardownForgotten =>
    simp only [Teardown.step] at hstep
    split at hstep
    · split at hstep
      · cases hstep
        exact ⟨h.closeIds, h.stopIds, h.attemptIds, h.closes, fun closes heq => (by cases heq),
          fun stop hstop => (h.stops stop hstop).keeps (keeps_refl s) rfl,
          fun attempt hattempt => (h.attempts attempt hattempt).keeps (keeps_refl s) rfl⟩
      · cases hstep
    · cases hstep
  | tick ms =>
    simp only [Teardown.step] at hstep
    split at hstep
    · next hpass =>
      cases hstep
      exact h.tick hpass
    · cases hstep

theorem sound_init : Sound config init := by
  refine ⟨rfl, rfl, rfl, ?_, ?_, ?_, ?_⟩
  · exact fun close hclose => absurd hclose List.not_mem_nil
  · intro closes heq
    cases heq
  · exact fun stop hstop => absurd hstop List.not_mem_nil
  · exact fun attempt hattempt => absurd hattempt List.not_mem_nil

/-! ### every wait comes to its end -/

/-- A wait of the supervisor's own: a timer, time passing, or a function that goes on. -/
def isOwn : TeardownEvent → Bool
  | .closeStep _ how isThrown => how = .timedOut && !isThrown
  | .drained _ isTimeout isThrown => isTimeout && !isThrown
  | .answered _ isTimeout => isTimeout
  | .stopGoesOn .. | .attemptGoesOn _ | .tick _ => true
  | .left .. | .stop _ | .attempt | .teardownForgotten => false

/-- The waits that are left to a close. -/
def closeLeft (close : PortClose) : Nat :=
  match close.phase with
  | .waiting step _ => 5 - CloseStep.place step
  | .finished | .threw => 0

def stopLeft (stop : StopRun) : Nat :=
  match stop.phase with
  | .draining _ => 6
  | .awaitingTeardown _ => 2
  | .answering _ => 1
  | .resolved | .rejected => 0

def attemptLeft (attempt : ConnectAttempt) : Nat :=
  match attempt.phase with
  | .awaitingTeardown _ => 1
  | .wentOn | .threw => 0

/-- The waits that are left to all of them. -/
def left (s : Teardown) : Nat :=
  (s.closes.map closeLeft).sum + (s.stops.map stopLeft).sum + (s.attempts.map attemptLeft).sum

theorem sum_adjust_le {α K : Type} [DecidableEq K] {key : α → K} {k : K} {f : α → α}
    {g : α → Nat} {l : List α}
    (hle : ∀ b ∈ l, key b = k → g (f b) ≤ g b) :
    ((KeyedList.adjust key k f l).map g).sum ≤ (l.map g).sum := by
  unfold KeyedList.adjust
  rw [List.map_map]
  refine List.sum_le_sum fun b hb => ?_
  simp only [Function.comp_apply]
  split
  · next hk => exact hle b hb hk
  · exact Nat.le_refl _

/-- A change of a record that is there takes as much off the sum as off the record. -/
theorem sum_adjust_add_le {α K : Type} [DecidableEq K] {key : α → K} {k : K} {f : α → α}
    {g : α → Nat} {c : Nat} {a : α} {l : List α}
    (ha : a ∈ l) (hk : key a = k) (hle : ∀ b ∈ l, key b = k → g (f b) + c ≤ g b) :
    ((KeyedList.adjust key k f l).map g).sum + c ≤ (l.map g).sum := by
  induction l with
  | nil => cases ha
  | cons b l ih =>
    have hlater : ∀ b' ∈ l, key b' = k → g (f b') + c ≤ g b' :=
      fun b' hb' => hle b' (List.mem_cons_of_mem _ hb')
    have hcons : ((KeyedList.adjust key k f (b :: l)).map g).sum
        = g (if key b = k then f b else b) + ((KeyedList.adjust key k f l).map g).sum := rfl
    rw [hcons, List.map_cons, List.sum_cons]
    by_cases hb : key b = k
    · have hhead := hle b List.mem_cons_self hb
      have htail := sum_adjust_le (f := f) (g := g) fun b' hb' hk' =>
        Nat.le_of_add_right_le (hlater b' hb' hk')
      rw [if_pos hb]
      omega
    · have hmem : a ∈ l := by
        rcases List.mem_cons.mp ha with rfl | ha
        · exact absurd hk hb
        · exact ha
      have htail := ih hmem hlater
      rw [if_neg hb]
      omega

/-- The waits of a close that times out are one fewer. -/
theorem closeLeft_nextPhase {close : PortClose} {step : CloseStep} {due : Nat}
    (hphase : close.phase = .waiting step due)
    (calls : List CloseCall) (ends : List StepEnd) :
    closeLeft { close with
    phase := nextPhase config now step .timedOut false
    calls
    ends } + 1 ≤ closeLeft close := by
  have hleft : closeLeft close = 5 - CloseStep.place step := by
    unfold closeLeft
    rw [hphase]
  rw [hleft]
  cases step with
  | draining | cancelling | aborting | waitingForOpen | closing => exact Nat.le_refl _

/-- Something that has a timer. -/
def HasTimer (s : Teardown) (due : Nat) : Prop :=
  (∃ close ∈ s.closes, ∃ step, close.phase = .waiting step due) ∨
    ∃ stop ∈ s.stops, stop.phase = .draining due ∨ stop.phase = .answering due

variable (config) in
/-- Events of the supervisor's own that lead from one state to a later one. -/
def LeadsTo (s s' : Teardown) : Prop :=
  ∃ events, (∀ event ∈ events, isOwn event = true) ∧
    (teardownRuns config).runFrom s events = some s' ∧
    s'.stops.length = s.stops.length ∧ s'.attempts.length = s.attempts.length

theorem leadsTo_refl (s : Teardown) : LeadsTo config s s :=
  ⟨[], fun _ hevent => absurd hevent List.not_mem_nil, rfl, rfl, rfl⟩

theorem LeadsTo.trans {s'' : Teardown} (h : LeadsTo config s s') (h' : LeadsTo config s' s'') :
    LeadsTo config s s'' := by
  obtain ⟨events, hown, hrun, hstops, hattempts⟩ := h
  obtain ⟨events', hown', hrun', hstops', hattempts'⟩ := h'
  refine ⟨events ++ events', fun event hevent => ?_, ?_, hstops'.trans hstops,
    hattempts'.trans hattempts⟩
  · rcases List.mem_append.mp hevent with hevent | hevent
    · exact hown event hevent
    · exact hown' event hevent
  · rw [TransitionSystem.runFrom_append, hrun]
    exact hrun'

theorem leadsTo_step {event : TeardownEvent} (hown : isOwn event = true)
    (hstep : s.step config event = some s')
    (hstops : s'.stops.length = s.stops.length)
    (hattempts : s'.attempts.length = s.attempts.length) : LeadsTo config s s' := by
  refine ⟨[event], fun event' hevent => ?_, ?_, hstops, hattempts⟩
  · rw [List.mem_singleton.mp hevent]
    exact hown
  · exact Option.bind_eq_some_iff.mpr ⟨s', hstep, rfl⟩

/-- Nothing but timers is waited for. -/
def IsQuiet (s : Teardown) : Prop :=
  (∀ stop ∈ s.stops, ∀ closes, stop.phase = .awaitingTeardown closes →
    s.hasFinished closes = false) ∧
    ∀ attempt ∈ s.attempts, ∀ closes, attempt.phase = .awaitingTeardown closes →
      s.hasFinished closes = false

theorem Sound.now_le_of_hasTimer (h : Sound config s) {due : Nat} (htimer : HasTimer s due) :
    s.monotonicNow ≤ due := by
  rcases htimer with ⟨close, hclose, step, hphase⟩ | ⟨stop, hstop, hphase | hphase⟩
  · exact ((h.closes close hclose).waiting step due hphase).1
  · exact ((h.stops stop hstop).draining due hphase).1
  · exact ((h.stops stop hstop).answering due hphase).1

/-- Time passes up to the first timer. -/
theorem Sound.canPass (h : Sound config s) (hquiet : IsQuiet s) {ms : Nat}
    (hfirst : ∀ due, HasTimer s due → s.monotonicNow + ms ≤ due) :
    s.canPass ms = true := by
  unfold Teardown.canPass
  simp only [Bool.and_eq_true, List.all_eq_true]
  refine ⟨⟨fun close hclose => ?_, fun stop hstop => ?_⟩, fun attempt hattempt => ?_⟩
  · cases hphase : close.phase with
    | waiting step due => exact decide_eq_true (hfirst due (Or.inl ⟨close, hclose, step, hphase⟩))
    | finished | threw => rfl
  · cases hphase : stop.phase with
    | draining due => exact decide_eq_true (hfirst due (Or.inr ⟨stop, hstop, Or.inl hphase⟩))
    | answering due => exact decide_eq_true (hfirst due (Or.inr ⟨stop, hstop, Or.inr hphase⟩))
    | awaitingTeardown closes =>
      change (!s.hasThrown closes && !s.hasFinished closes) = true
      rw [h.not_hasThrown, hquiet.1 stop hstop closes hphase]
      rfl
    | resolved | rejected => rfl
  · cases hphase : attempt.phase with
    | awaitingTeardown closes =>
      change (!s.hasThrown closes && !s.hasFinished closes) = true
      rw [h.not_hasThrown, hquiet.2 attempt hattempt closes hphase]
      rfl
    | wentOn | threw => rfl

/-- As long as something is waited for and nothing can go on, there is a timer. -/
theorem Sound.exists_timer (h : Sound config s) (hquiet : IsQuiet s) (hleft : 0 < s.left) :
    ∃ due, HasTimer s due := by
  by_contra hnone
  have hcloses : ∀ close ∈ s.closes, closeLeft close = 0 := by
    intro close hclose
    unfold closeLeft
    cases hphase : close.phase with
    | waiting step due => exact absurd ⟨due, Or.inl ⟨close, hclose, step, hphase⟩⟩ hnone
    | finished | threw => rfl
  have hpending : ∀ {time closes}, BegunBy s time closes →
      s.hasFinished closes = false → False := by
    intro time closes hby hunfinished
    obtain ⟨close, hclose, -, step, due, hphase⟩ := h.exists_waiting hby hunfinished
    exact hnone ⟨due, Or.inl ⟨close, hclose, step, hphase⟩⟩
  have hstops : ∀ stop ∈ s.stops, stopLeft stop = 0 := by
    intro stop hstop
    unfold stopLeft
    cases hphase : stop.phase with
    | draining due => exact absurd ⟨due, Or.inr ⟨stop, hstop, Or.inl hphase⟩⟩ hnone
    | answering due => exact absurd ⟨due, Or.inr ⟨stop, hstop, Or.inr hphase⟩⟩ hnone
    | awaitingTeardown closes =>
      exact (hpending ((h.stops stop hstop).awaiting closes hphase).1
        (hquiet.1 stop hstop closes hphase)).elim
    | resolved | rejected => rfl
  have hattempts : ∀ attempt ∈ s.attempts, attemptLeft attempt = 0 := by
    intro attempt hattempt
    unfold attemptLeft
    cases hphase : attempt.phase with
    | awaitingTeardown closes =>
      exact (hpending ((h.attempts attempt hattempt).awaiting closes hphase).1
        (hquiet.2 attempt hattempt closes hphase)).elim
    | wentOn | threw => rfl
  have hzero : s.left = 0 := by
    unfold Teardown.left
    rw [List.sum_eq_zero (by simpa using hcloses), List.sum_eq_zero (by simpa using hstops),
      List.sum_eq_zero (by simpa using hattempts)]
    rfl
  omega

/-- The first timer fires. -/
theorem Sound.fire (h : Sound config s) {due : Nat} (htimer : HasTimer s due)
    (hnow : s.monotonicNow = due) :
    ∃ s', LeadsTo config s s' ∧ Sound config s' ∧ s'.left < s.left := by
  rcases htimer with ⟨close, hclose, step, hphase⟩ | ⟨stop, hstop, hphase⟩
  · have hfound : s.phase? close.id = some (.waiting step due) := by
      rw [phase?, h.distinct.lookup hclose, Option.map_some, hphase]
    have hstep : s.step config (.closeStep close.id .timedOut false) = some (s.endStep config
        close.id step .timedOut false) := by
      simp only [Teardown.step, hfound, hnow, Nat.lt_irrefl, and_false, if_false]
    refine ⟨_, leadsTo_step rfl hstep rfl rfl, h.step rfl hstep, ?_⟩
    have hsum : ((s.endStep config close.id step .timedOut false).closes.map closeLeft).sum + 1 ≤
        (s.closes.map closeLeft).sum := by
      refine sum_adjust_add_le hclose rfl fun b hb hk => ?_
      obtain rfl := h.distinct.eq_of_mem hb hclose hk
      exact closeLeft_nextPhase hphase _ _
    have hrest : (s.endStep config close.id step .timedOut false).left + 1 ≤ s.left := by
      unfold Teardown.left
      change _ + (s.stops.map stopLeft).sum + (s.attempts.map attemptLeft).sum + 1 ≤ _
      omega
    exact hrest
  · have hdistinct := distinct_stops h.stopIds
    have hfound : (KeyedList.lookup StopRun.id stop.id s.stops).map
        StopRun.phase = some stop.phase := by
      rw [hdistinct.lookup hstop, Option.map_some]
    rcases hphase with hphase | hphase
    · rw [hphase] at hfound
      have hstep : s.step config (.drained stop.id true false) = some (s.stopDrained config
          stop.id false) := by
        simp only [Teardown.step, hfound, hnow, Nat.lt_irrefl, and_false, if_false]
      have hlength : (s.stopDrained config stop.id false).stops.length = s.stops.length :=
        List.length_map ..
      refine ⟨_, leadsTo_step rfl hstep hlength rfl, h.step rfl hstep, ?_⟩
      have hcloses : ((s.stopDrained config stop.id false).closes.map closeLeft).sum = (s.closes.map
          closeLeft).sum + 3 := by
        change ((s.closes ++ [_]).map closeLeft).sum = _
        rw [List.map_append, List.sum_append]
        rfl
      have hstops : ((s.stopDrained config stop.id false).stops.map stopLeft).sum + 4 ≤
          (s.stops.map stopLeft).sum := by
        refine sum_adjust_add_le hstop rfl fun b hb hk => ?_
        obtain rfl := hdistinct.eq_of_mem hb hstop hk
        unfold stopLeft
        rw [hphase]
      have hrest : (s.stopDrained config stop.id false).left + 1 ≤ s.left := by
        unfold Teardown.left
        change _ + _ + (s.attempts.map attemptLeft).sum + 1 ≤ _
        omega
      exact hrest
    · rw [hphase] at hfound
      have hstep : s.step config (.answered stop.id true) = some (s.setStop stop.id .resolved) := by
        simp only [Teardown.step, hfound, hnow, Nat.lt_irrefl, and_false, if_false]
      have hlength : (s.setStop stop.id .resolved).stops.length = s.stops.length :=
        List.length_map ..
      refine ⟨_, leadsTo_step rfl hstep hlength rfl, h.step rfl hstep, ?_⟩
      have hstops : ((s.setStop stop.id .resolved).stops.map stopLeft).sum + 1 ≤
          (s.stops.map stopLeft).sum := by
        refine sum_adjust_add_le hstop rfl fun b hb hk => ?_
        obtain rfl := hdistinct.eq_of_mem hb hstop hk
        unfold stopLeft
        rw [hphase]
      have hrest : (s.setStop stop.id .resolved).left + 1 ≤ s.left := by
        unfold Teardown.left
        change (s.closes.map closeLeft).sum + _ + (s.attempts.map attemptLeft).sum + 1 ≤ _
        omega
      exact hrest

/-- Something that can go on does. -/
theorem Sound.goOn (h : Sound config s) (hquiet : ¬ IsQuiet s) :
    ∃ s', LeadsTo config s s' ∧ Sound config s' ∧ s'.left < s.left := by
  rcases not_and_or.mp hquiet with hstops | hattempts
  · push Not at hstops
    obtain ⟨stop, hstop, closes, hphase, hfinished⟩ := hstops
    have hfinished : s.hasFinished closes = true := by simpa using hfinished
    have hdistinct := distinct_stops h.stopIds
    have hfound : (KeyedList.lookup StopRun.id stop.id s.stops).map
        StopRun.phase = some (.awaitingTeardown closes) := by
      rw [hdistinct.lookup hstop, Option.map_some, hphase]
    have hstep : s.step config (.stopGoesOn stop.id false)
        = some (s.setStop stop.id (.answering (s.monotonicNow + config.writeTimeoutMs))) := by
      simp only [Teardown.step, hfound, h.not_hasThrown, hfinished, Bool.false_eq_true,
        if_false, if_true]
    have hlength : (s.setStop stop.id
        (.answering (s.monotonicNow + config.writeTimeoutMs))).stops.length = s.stops.length :=
      List.length_map ..
    refine ⟨_, leadsTo_step rfl hstep hlength rfl, h.step rfl hstep, ?_⟩
    have hsum : ((s.setStop stop.id (.answering (s.monotonicNow + config.writeTimeoutMs))).stops.map
      stopLeft).sum + 1
        ≤ (s.stops.map stopLeft).sum := by
      refine sum_adjust_add_le hstop rfl fun b hb hk => ?_
      obtain rfl := hdistinct.eq_of_mem hb hstop hk
      unfold stopLeft
      rw [hphase]
    have hrest : (s.setStop stop.id (.answering (s.monotonicNow + config.writeTimeoutMs))).left +
        1 ≤ s.left := by
      unfold Teardown.left
      change (s.closes.map closeLeft).sum + _ + (s.attempts.map attemptLeft).sum + 1 ≤ _
      omega
    exact hrest
  · push Not at hattempts
    obtain ⟨attempt, hattempt, closes, hphase, hfinished⟩ := hattempts
    have hfinished : s.hasFinished closes = true := by simpa using hfinished
    have hdistinct := distinct_attempts h.attemptIds
    have hfound : (KeyedList.lookup ConnectAttempt.id attempt.id s.attempts).map
      ConnectAttempt.phase
        = some (.awaitingTeardown closes) := by
      rw [hdistinct.lookup hattempt, Option.map_some, hphase]
    have hstep : s.step config (.attemptGoesOn attempt.id) = some (s.setAttempt attempt.id
        .wentOn) := by
      simp only [Teardown.step, hfound, h.not_hasThrown, hfinished, Bool.false_eq_true,
        if_false, if_true]
    have hlength : (s.setAttempt attempt.id .wentOn).attempts.length = s.attempts.length :=
      List.length_map ..
    refine ⟨_, leadsTo_step rfl hstep rfl hlength, h.step rfl hstep, ?_⟩
    have hsum : ((s.setAttempt attempt.id .wentOn).attempts.map attemptLeft).sum + 1 ≤
        (s.attempts.map attemptLeft).sum := by
      refine sum_adjust_add_le hattempt rfl fun b hb hk => ?_
      obtain rfl := hdistinct.eq_of_mem hb hattempt hk
      unfold attemptLeft
      rw [hphase]
    have hrest : (s.setAttempt attempt.id .wentOn).left + 1 ≤ s.left := by
      unfold Teardown.left
      change (s.closes.map closeLeft).sum + (s.stops.map stopLeft).sum + _ + 1 ≤ _
      omega
    exact hrest

/-- One of the waits that are left comes to its end, the first whose time has come. -/
theorem Sound.advance (h : Sound config s) (hleft : 0 < s.left) :
    ∃ s', LeadsTo config s s' ∧ Sound config s' ∧ s'.left < s.left := by
  by_cases hquiet : IsQuiet s
  · classical
    have hexists := h.exists_timer hquiet hleft
    have hfirst := Nat.find_spec hexists
    have hnow := h.now_le_of_hasTimer hfirst
    have hpass : s.canPass (Nat.find hexists - s.monotonicNow) = true := by
      refine h.canPass hquiet fun due htimer => ?_
      have hmin := Nat.find_min' hexists htimer
      omega
    have hstep : s.step config (.tick (Nat.find hexists - s.monotonicNow))
        = some { s with
          monotonicNow := s.monotonicNow + (Nat.find hexists - s.monotonicNow) } := if_pos hpass
    have hpassed := h.tick hpass
    obtain ⟨s', hleads, hsound, hless⟩ := hpassed.fire hfirst (Nat.add_sub_of_le hnow)
    exact ⟨s', (leadsTo_step rfl hstep rfl rfl).trans hleads, hsound, hless⟩
  · exact h.goOn hquiet

/-- Every wait comes to its end. -/
theorem Sound.settles (h : Sound config s) :
    ∃ s', LeadsTo config s s' ∧ Sound config s' ∧ s'.left = 0 := by
  induction hn : s.left using Nat.strong_induction_on generalizing s with
  | _ n ih =>
    by_cases hzero : n = 0
    · exact ⟨s, leadsTo_refl s, h, hn.trans hzero⟩
    · obtain ⟨s', hleads, hsound, hless⟩ := h.advance (by omega)
      obtain ⟨s'', hleads', hsound', hleft⟩ := ih s'.left (by omega) hsound rfl
      exact ⟨s'', hleads.trans hleads', hsound', hleft⟩

theorem sound_of_run {events : List TeardownEvent}
    (hcalm : (teardownRuns config).Always (fun _ event => throwsAtOnce event = false) events)
    (hrun : (teardownRuns config).run events = some s) : Sound config s :=
  TransitionSystem.run_invariant sound_init (fun _ _ _ h hcalm hstep =>
    h.step hcalm hstep) hcalm hrun

theorem Sound.stop_le (h : Sound config s) {stop : StopRun} (hstop : stop ∈ s.stops)
    (hpending : stop.phase ≠ .resolved) :
    s.monotonicNow ≤ stop.begun + (5 * config.openTimeoutMs + config.writeTimeoutMs) := by
  obtain ⟨-, hunrejected, hdraining, hawaiting, hanswering⟩ := h.stops stop hstop
  cases hphase : stop.phase with
  | draining due =>
    obtain ⟨hnow, hdue⟩ := hdraining due hphase
    omega
  | awaitingTeardown closes =>
    obtain ⟨-, hnow⟩ := hawaiting closes hphase
    omega
  | answering due =>
    obtain ⟨hnow, hdue⟩ := hanswering due hphase
    omega
  | resolved => exact absurd hphase hpending
  | rejected => exact absurd hphase hunrejected

theorem Sound.close_le (h : Sound config s) {close : PortClose} (hclose : close ∈ s.closes)
    (hpending : close.phase ≠ .finished) :
    s.monotonicNow ≤ close.begun + 4 * config.openTimeoutMs := by
  have hsound := h.closes close hclose
  cases hphase : close.phase with
  | waiting step due => exact (hsound.waiting step due hphase).1.trans (hsound.due_le hphase)
  | finished => exact absurd hphase hpending
  | threw => exact absurd hphase hsound.unthrown

theorem Sound.attempt_le (h : Sound config s) {attempt : ConnectAttempt}
    (hattempt : attempt ∈ s.attempts)
    (hpending : attempt.phase ≠ .wentOn) :
    s.monotonicNow ≤ attempt.begun + 4 * config.openTimeoutMs := by
  obtain ⟨-, hunthrown, hawaiting⟩ := h.attempts attempt hattempt
  cases hphase : attempt.phase with
  | awaitingTeardown closes => exact (hawaiting closes hphase).2
  | wentOn => exact absurd hphase hpending
  | threw => exact absurd hphase hunthrown

/-- With no wait left, everything has come to its end. -/
theorem Sound.all_settled (h : Sound config s) (hleft : s.left = 0) :
    (∀ close ∈ s.closes, close.phase = .finished) ∧
    (∀ stop ∈ s.stops, stop.phase = .resolved) ∧
      ∀ attempt ∈ s.attempts, attempt.phase = .wentOn := by
  unfold Teardown.left at hleft
  have hzero : ∀ {l : List Nat}, l.sum = 0 → ∀ n ∈ l, n = 0 :=
    fun hsum n hn => List.sum_eq_zero_iff.mp hsum n hn
  refine ⟨fun close hclose => ?_, fun stop hstop => ?_, fun attempt hattempt => ?_⟩
  · have hnone := hzero (by omega) _ (List.mem_map_of_mem (f := closeLeft) hclose)
    unfold closeLeft at hnone
    cases hphase : close.phase with
    | waiting step due =>
      rw [hphase] at hnone
      cases step with
      | draining | cancelling | aborting | waitingForOpen | closing => cases hnone
    | finished => rfl
    | threw => exact absurd hphase (h.closes close hclose).unthrown
  · have hnone := hzero (by omega) _ (List.mem_map_of_mem (f := stopLeft) hstop)
    unfold stopLeft at hnone
    cases hphase : stop.phase with
    | resolved => rfl
    | rejected => exact absurd hphase (h.stops stop hstop).unrejected
    | draining | awaitingTeardown | answering =>
      rw [hphase] at hnone
      cases hnone
  · have hnone := hzero (by omega) _ (List.mem_map_of_mem (f := attemptLeft) hattempt)
    unfold attemptLeft at hnone
    cases hphase : attempt.phase with
    | wentOn => rfl
    | threw => exact absurd hphase (h.attempts attempt hattempt).unthrown
    | awaitingTeardown closes =>
      rw [hphase] at hnone
      cases hnone

/-- **Stopping always succeeds**, as long as no call throws at once. In every run, `stop()` does not
reject and takes no longer than five of the waits for a port and one for the writes; a close makes
every call of its own although earlier steps failed, within four waits; and no attempt to connect is
kept from being made by a close. From every state all of them come to their end by the supervisor's
own timers. -/
theorem stop_always_succeeds {events : List TeardownEvent} {s : Teardown}
    (hcalm : (teardownRuns config).Always (fun _ event => throwsAtOnce event = false) events)
    (hrun : (teardownRuns config).run events = some s) :
    (∀ stop ∈ s.stops, stop.phase ≠ .rejected ∧
      (stop.phase ≠ .resolved →
        s.monotonicNow ≤ stop.begun + (5 * config.openTimeoutMs + config.writeTimeoutMs))) ∧
    (∀ close ∈ s.closes, (close.phase = .finished → IsComplete close) ∧
      (close.phase ≠ .finished → s.monotonicNow ≤ close.begun + 4 * config.openTimeoutMs)) ∧
    (∀ attempt ∈ s.attempts, attempt.phase ≠ .threw ∧
      (attempt.phase ≠ .wentOn → s.monotonicNow ≤ attempt.begun + 4 * config.openTimeoutMs)) ∧
    ∃ s', LeadsTo config s s' ∧ (∀ close ∈ s'.closes, close.phase = .finished) ∧
      (∀ stop ∈ s'.stops, stop.phase = .resolved) ∧
        ∀ attempt ∈ s'.attempts, attempt.phase = .wentOn := by
  have h := sound_of_run hcalm hrun
  refine ⟨fun stop hstop => ⟨(h.stops stop hstop).unrejected, h.stop_le hstop⟩,
    fun close hclose => ⟨(h.closes close hclose).finished, h.close_le hclose⟩,
    fun attempt hattempt => ⟨(h.attempts attempt hattempt).unthrown, h.attempt_le hattempt⟩, ?_⟩
  obtain ⟨s', hleads, hsound, hleft⟩ := h.settles
  exact ⟨s', hleads, hsound.all_settled hleft⟩

/-- A connection is lost whose reader fails to cancel and whose writer hangs, an attempt waits for
it, and the port is given up. -/
def stoppedWhileClosing : List TeardownEvent :=
  [.left (.open 7 0) false false, .attempt, .tick 3, .closeStep 0 .rejected false, .stop .listing,
    .tick 10, .closeStep 0 .timedOut false]

theorem stop_always_succeeds_stoppedWhileClosing :
    ∃ s, (teardownRuns ⟨10, 20⟩).run stoppedWhileClosing = some s ∧ s.stops.length = 1 ∧
      (∀ stop ∈ s.stops, stop.phase ≠ .rejected) ∧
      ∃ s', LeadsTo ⟨10, 20⟩ s s' ∧ ∀ stop ∈ s'.stops, stop.phase = .resolved := by
  have hsome := (Option.any_eq_true _ _).mp
      (show ((teardownRuns ⟨10, 20⟩).run stoppedWhileClosing).any (fun s =>
    s.stops.length = 1) = true by decide)
  obtain ⟨s, hrun, hlength⟩ := hsome
  have hcalm : (teardownRuns ⟨10, 20⟩).Always (fun _ event => throwsAtOnce event = false)
      stoppedWhileClosing :=
    TransitionSystem.always_of_mem (by decide)
  obtain ⟨hstops, -, -, s', hleads, -, hresolved, -⟩ := stop_always_succeeds hcalm hrun
  exact ⟨s, hrun, of_decide_eq_true hlength, fun stop hstop => (hstops stop hstop).1, s',
    hleads, hresolved⟩

/-- A connection is lost whose reader throws when it is cancelled; then an attempt is made, and the
port is given up. -/
def cancelThrows : List TeardownEvent :=
  [.left (.open 7 0) false true, .attempt, .attemptGoesOn 0, .stop (.reconnecting 0),
    .stopGoesOn 0 true]

/-- `#closeStep` never sees what `reader.cancel()` throws: the close rejects, and `stop()` and the
attempt with it. -/
theorem not_stop_always_succeeds :
    ¬ ∀ (config : WaitConfig) (events : List TeardownEvent) (s : Teardown),
      (teardownRuns config).run events = some s →
      (∀ stop ∈ s.stops, stop.phase ≠ .rejected) ∧
        ∀ attempt ∈ s.attempts, attempt.phase ≠ .threw := by
  intro h
  have hfails : ((teardownRuns ⟨10, 20⟩).run cancelThrows).any (fun s =>
      s.stops = [⟨0, 0, .rejected⟩] ∧ s.attempts = [⟨0, 0, .threw⟩]) = true := by decide
  obtain ⟨s, hrun, hs⟩ := (Option.any_eq_true _ _).mp hfails
  obtain ⟨hstops, -⟩ := of_decide_eq_true hs
  exact (h _ _ s hrun).1 ⟨0, 0, .rejected⟩ (hstops ▸ List.mem_singleton_self _) rfl

end Teardown

end SerialBroker
