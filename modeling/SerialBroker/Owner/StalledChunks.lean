import SerialBroker.Owner.WholeChunks

/-!
# A stalled chunk and the connections after its own

A job whose chunk outlived its deadline waits for the chunk or for the end of a connection: of the
one that is open when it begins to wait. As long as that is the connection the chunk was written to,
the end of it ends the wait, and the queue goes on. A deadline that passes after the connection has
ended leaves the job waiting on the connection that replaced it.
-/

namespace SerialBroker

namespace PortWriter

/-- A chunk's deadline passes while its connection is open, and nothing happens to that before the
job goes on. -/
def passesWhileOpen (s : PortWriter) : WriterEvent → Bool
  | .deadline => match s.running with
    | some ⟨_, .writing openId _ _ _⟩ => s.openConnection = some openId
    | _ => true
  | .enterState _ => match s.running with
    | some ⟨_, .settled _ _ _ .timedOut⟩ => false
    | _ => true
  | _ => true

/-- A job that waits for a chunk past its deadline is told when the chunk's connection ends. -/
structure Registered (s : PortWriter) : Prop where
  timedOut : ∀ id openId bytesWritten chunk, s.running = some ⟨id,
    .settled openId bytesWritten chunk .timedOut⟩ →
    s.openConnection = some openId
  stalled : ∀ id openId chunk, s.running = some ⟨id, .stalled openId chunk⟩ →
    s.openConnection = some openId ∧ s.connectionEnded = some chunk

/-- Whether the running job is in neither of the two phases that look at the connection. -/
def isClear : Option WritingJob → Bool
  | some ⟨_, .settled _ _ _ .timedOut⟩ | some ⟨_, .stalled ..⟩ => false
  | _ => true

variable {config : WriterConfig} {s s' : PortWriter} {openId : OpenId}

theorem registered_of_clear (h : isClear s.running = true) : Registered s := by
  refine ⟨fun id openId bytesWritten chunk hrunning => ?_, fun id openId chunk hrunning => ?_⟩
  · rw [hrunning] at h
    exact absurd h Bool.false_ne_true
  · rw [hrunning] at h
    exact absurd h Bool.false_ne_true

theorem writeChunk_clear {w : PortWrite} {bytesWritten : Nat} {isThrown : Bool} :
    isClear (s.writeChunk config w openId bytesWritten isThrown).running = true := by
  unfold writeChunk
  dsimp only
  split
  · rfl
  · rfl

theorem begin_clear {w : PortWrite} {isApproved isThrown : Bool} :
    isClear (s.begin config w isApproved isThrown).running = true := by
  unfold begin
  split
  · rfl
  · split
    · exact writeChunk_clear
    · rfl

theorem chunkTaken_clear {w : PortWrite} {call : ChunkCall} {bytesWritten : Nat} {isThrown : Bool} :
    isClear (s.chunkTaken config w openId bytesWritten call isThrown).running = true := by
  unfold chunkTaken
  dsimp only
  split
  · exact writeChunk_clear
  · rfl

theorem stallEnded_running {w : PortWrite} {call : ChunkCall} {result : StallResult} :
    (s.stallEnded w openId call result).running = some ⟨w.id, .ended⟩ := by
  unfold stallEnded
  cases result with
  | taken | rejected | ended => rfl

variable (config s) in
/-- The next job has begun, and is asked about or has ended already. -/
theorem startJob_running (w : PortWrite) :
    (s.startJob config w).waiting = s.waiting ∧
      ∃ phase, (s.startJob config w).running = some ⟨w.id, phase⟩ ∧ isClear
      (some ⟨w.id, phase⟩) = true := by
  unfold startJob
  dsimp only
  split
  · exact ⟨rfl, _, rfl, rfl⟩
  · split
    · exact ⟨rfl, _, rfl, rfl⟩
    · exact ⟨rfl, _, rfl, rfl⟩

variable (config s) in
theorem startNext_running :
    (s.startNext config).running = s.running ∨ isClear (s.startNext config).running = true := by
  unfold startNext
  split
  · split
    · next w _ =>
      obtain ⟨-, phase, hrunning, hclear⟩ := startJob_running config { s with waiting := _ } w
      rw [hrunning]
      exact Or.inr hclear
    · exact Or.inl rfl
  · exact Or.inl rfl

theorem startNext_registered (h : s.running = none) : Registered (s.startNext config) := by
  refine registered_of_clear ?_
  rcases startNext_running config s with hsame | hclear
  · rw [hsame, h]
    rfl
  · exact hclear

theorem Registered.of_same (h : Registered s) (hrunning : s'.running = s.running)
    (hstate : s'.state = s.state)
    (hended : s'.connectionEnded = s.connectionEnded) : Registered s' := by
  have hopen : s'.openConnection = s.openConnection := by
    unfold openConnection
    rw [hstate]
  refine ⟨?_, ?_⟩
  · rw [hrunning, hopen]
    exact h.timedOut
  · rw [hrunning, hopen, hended]
    exact h.stalled

theorem startNext_state :
    (s.startNext config).state = s.state ∧
    (s.startNext config).connectionEnded = s.connectionEnded := by
  unfold startNext startJob
  split
  · split
    · dsimp only
      split
      · exact ⟨rfl, rfl⟩
      · split
        · exact ⟨rfl, rfl⟩
        · exact ⟨rfl, rfl⟩
    · exact ⟨rfl, rfl⟩
  · exact ⟨rfl, rfl⟩

theorem Registered.startNext (h : Registered s) : Registered (s.startNext config) := by
  rcases startNext_running config s with hsame | hclear
  · exact h.of_same hsame startNext_state.1 startNext_state.2
  · exact registered_of_clear hclear

theorem Registered.goOn {isThrown : Bool} (h : Registered s)
    (hgo : s.goOn config isThrown = some s') : Registered s' := by
  unfold PortWriter.goOn at hgo
  split at hgo
  · obtain ⟨w, -, rfl⟩ := Option.map_eq_some_iff.mp hgo
    exact registered_of_clear begin_clear
  · next id openId bytesWritten chunk result hrunning =>
    split at hgo
    · next w call hw hcall =>
      cases result with
      | taken =>
        cases hgo
        exact registered_of_clear chunkTaken_clear
      | rejected =>
        cases hgo
        exact registered_of_clear rfl
      | timedOut =>
        -- the job begins to wait, on the connection that is open now
        cases hgo
        have hopen := h.timedOut id openId bytesWritten chunk hrunning
        unfold awaitStalledWrite
        dsimp only
        split
        · refine ⟨fun id' openId' bytesWritten' chunk' hrunning' => ?_,
            fun id' openId' chunk' hrunning' => ?_⟩
          · cases hrunning'
          · cases hrunning'
            exact ⟨hopen, rfl⟩
        · exact registered_of_clear rfl
        · exact registered_of_clear rfl
    · cases hgo
  · split at hgo
    · cases hgo
      refine registered_of_clear ?_
      rw [stallEnded_running]
      rfl
    · cases hgo
  · cases hgo

/-- The end of its connection ends the wait for a stalled chunk. -/
theorem Registered.enterState (h : Registered s) {next : ConnectionState}
    (hpass : passesWhileOpen s (.enterState next) = true) :
    Registered (s.enterState next) := by
  by_cases hclear : isClear s.running = true
  · refine registered_of_clear ?_
    unfold PortWriter.enterState
    dsimp only
    split
    · next hrunning => rw [hrunning] at hclear; exact absurd hclear Bool.false_ne_true
    · exact hclear
    · exact hclear
  · obtain ⟨id, openId, chunk, hrunning⟩ :
        ∃ id openId chunk, s.running = some ⟨id, .stalled openId chunk⟩ := by
      unfold isClear at hclear
      split at hclear
      · next hrunning => simp [passesWhileOpen, hrunning] at hpass
      · next hrunning => exact ⟨_, _, _, hrunning⟩
      · exact absurd rfl hclear
    obtain ⟨hopen, hended⟩ := h.stalled id openId chunk hrunning
    refine registered_of_clear ?_
    unfold PortWriter.enterState
    simp only [hopen, hended, hrunning, if_true]
    rfl

theorem hear_clear (chunk : ChunkId) (isTaken : Bool) (id : WriteId) (phase : JobPhase) :
    hear chunk isTaken phase = phase ∨ isClear (some ⟨id, hear chunk isTaken phase⟩) = true := by
  cases phase with
  | writing openId bytesWritten awaited due =>
    simp only [hear]
    split
    · cases isTaken with
      | true => exact Or.inr rfl
      | false => exact Or.inr rfl
    · exact Or.inl rfl
  | stalled openId awaited =>
    simp only [hear]
    split
    · exact Or.inr rfl
    · exact Or.inl rfl
  | asking | awaitingAnswer | answered | settled | unstalled | ended => exact Or.inl rfl

theorem Registered.settle (h : Registered s) (chunk : ChunkId) (isTaken : Bool) :
    Registered (s.settle chunk isTaken) := by
  cases hrunning : s.running with
  | none =>
    refine registered_of_clear ?_
    change isClear (s.running.map _) = true
    rw [hrunning]
    rfl
  | some job =>
    obtain ⟨id, phase⟩ := job
    have hjob : (s.settle chunk isTaken).running = some ⟨id, hear chunk isTaken phase⟩ := by
      change s.running.map _ = _
      rw [hrunning]
      rfl
    rcases hear_clear chunk isTaken id phase with hsame | hclear
    · refine h.of_same ?_ rfl rfl
      rw [hjob, hrunning, hsame]
    · refine registered_of_clear ?_
      rw [hjob]
      exact hclear

theorem Registered.step (h : Registered s) {event : WriterEvent}
    (hpass : passesWhileOpen s event = true)
    (hstep : s.step config event = some s') : Registered s' := by
  cases event with
  | write payload =>
    cases hstep
    exact h.of_same rfl rfl rfl
  | expiryTimer id =>
    simp only [PortWriter.step] at hstep
    split at hstep
    · split at hstep
      · cases hstep
        unfold expire
        split
        · exact h.of_same rfl rfl rfl
        · exact h.of_same rfl rfl rfl
      · cases hstep
    · cases hstep
  | startNext =>
    simp only [PortWriter.step] at hstep
    split at hstep
    · cases hstep
      have hunset : Registered { s with isStartScheduled := false } := h.of_same rfl rfl rfl
      exact hunset.startNext
    · cases hstep
  | mayBegin answer isThrown =>
    simp only [PortWriter.step] at hstep
    split at hstep
    · cases answer with
      | none =>
        cases hstep
        exact registered_of_clear rfl
      | some isApproved =>
        obtain ⟨w, -, rfl⟩ := Option.map_eq_some_iff.mp hstep
        exact registered_of_clear begin_clear
    · cases hstep
  | answer isApproved =>
    simp only [PortWriter.step] at hstep
    split at hstep
    · cases hstep
      exact registered_of_clear rfl
    · cases hstep
  | answerTimer =>
    simp only [PortWriter.step] at hstep
    split at hstep
    · split at hstep
      · cases hstep
        exact registered_of_clear rfl
      · cases hstep
    · cases hstep
  | stopWaiting =>
    simp only [PortWriter.step] at hstep
    split at hstep
    · cases hstep
      exact registered_of_clear rfl
    · cases hstep
      exact h
  | goOn isThrown => exact h.goOn hstep
  | settle chunk isTaken =>
    simp only [PortWriter.step] at hstep
    split at hstep
    · cases hstep
      exact h.settle chunk isTaken
    · cases hstep
  | deadline =>
    simp only [PortWriter.step] at hstep
    split at hstep
    · next id openId bytesWritten chunk due hrunning =>
      split at hstep
      · cases hstep
        simp only [passesWhileOpen, hrunning, decide_eq_true_eq] at hpass
        refine ⟨fun id' openId' bytesWritten' chunk' hrunning' => ?_,
          fun id' openId' chunk' hrunning' => ?_⟩
        · cases hrunning'
          exact hpass
        · cases hrunning'
      · cases hstep
    · cases hstep
  | finish =>
    simp only [PortWriter.step] at hstep
    split at hstep
    · cases hstep
      exact startNext_registered rfl
    · cases hstep
  | enterState next =>
    simp only [PortWriter.step] at hstep
    split at hstep
    · cases hstep
      exact h.enterState hpass
    · cases hstep
  | tick ms =>
    cases hstep
    exact h.of_same rfl rfl rfl

/-! ### the queue goes on -/

/-- The next job in the queue runs, and no other has left it. -/
def NextRuns (s s' : PortWriter) : Prop :=
  s'.waiting = s.waiting.tail ∧ ∀ id, s.waiting.head? = some id →
    ∃ phase, s'.running = some ⟨id, phase⟩

theorem startNext_nil (hrunning : s.running = none) (hwaiting : s.waiting = []) :
    s.startNext config = s := by
  unfold startNext
  rw [hrunning, hwaiting]

theorem startNext_cons {w : PortWrite} {rest : List WriteId} (hrunning : s.running = none)
    (hwaiting : s.waiting = w.id :: rest)
    (hfound : s.write? w.id = some w) : s.startNext config =
      { s with waiting := rest }.startJob config w := by
  unfold startNext
  simp only [hrunning, hwaiting, hfound]

theorem startNext_nextRuns (hrunning : s.running = none)
    (hfound : ∀ id ∈ s.waiting, ∃ w, s.write? id = some w ∧ w.id = id) :
    NextRuns s (s.startNext config) := by
  unfold NextRuns
  cases hwaiting : s.waiting with
  | nil =>
    rw [startNext_nil hrunning hwaiting]
    refine ⟨hwaiting, fun id hid => ?_⟩
    cases hid
  | cons next rest =>
    obtain ⟨w, hw, rfl⟩ := hfound next (hwaiting ▸ List.mem_cons_self)
    obtain ⟨hrest, phase, hphase, -⟩ := startJob_running config { s with waiting := rest } w
    rw [startNext_cons hrunning hwaiting hw]
    refine ⟨hrest, fun id hid => ⟨phase, ?_⟩⟩
    obtain rfl : w.id = id := by simpa using hid
    exact hphase

/-- The queue hears that a job has ended, and the next one begins. -/
theorem Ordered.finish (h : Ordered config s) {id : WriteId}
    (hrunning : s.running = some ⟨id, .ended⟩) :
    ∃ s', s.step config .finish = some s' ∧ NextRuns s s' := by
  refine ⟨s.finish config, ?_, ?_⟩
  · simp only [PortWriter.step, hrunning]
  · have hnext : NextRuns { s with running := none } (s.finish config) :=
        startNext_nextRuns rfl fun id hid => by
      obtain ⟨w, -, hfound, hwid⟩ := h.exists_write (h.waitingLt id hid)
      exact ⟨w, hfound, hwid⟩
    exact hnext

/-- The job whose wait is over ends, and the next one begins. -/
theorem Ordered.goOn_finish (h : Ordered config s) {id : WriteId} {chunk : ChunkId}
    {result : StallResult}
    (hrunning : s.running = some ⟨id, .unstalled openId chunk result⟩) :
    ∃ s', (writerRuns config).runFrom s [.goOn false, .finish] = some s' ∧ NextRuns s s' := by
  obtain ⟨w, hw, hwrite, rfl⟩ := h.exists_write (h.runningLt _ hrunning).1
  obtain ⟨bytesWritten, -, before, last, hcalls, -, rfl, -⟩ := h.fits w hw _ hrunning
  have hlast : last ∈ s.calls :=
    (List.mem_filter.mp (show last ∈ s.callsOf w.id by rw [hcalls]; simp)).1
  have hcall : s.call? last.id = some last := h.distinctCalls.lookup hlast
  have hgo : s.step config (.goOn false) = some (s.stallEnded w openId last result) := by
    simp only [PortWriter.step, PortWriter.goOn, hrunning, hwrite, hcall]
  have hwaiting : (s.stallEnded w openId last result).waiting = s.waiting := by
    unfold PortWriter.stallEnded
    cases result with
    | taken | ended => rfl
    | rejected =>
      unfold PortWriter.loseConnection
      dsimp only
      split
      · rfl
      · rfl
  obtain ⟨s', hfinish, hnext⟩ := (h.step hgo).finish stallEnded_running
  refine ⟨s', Option.bind_eq_some_iff.mpr ⟨_, hgo,
    Option.bind_eq_some_iff.mpr ⟨_, hfinish, rfl⟩⟩, ?_⟩
  rw [NextRuns, hwaiting] at hnext
  exact hnext

/-- A job whose chunk was late is past the loop, and waits for nothing but microtasks once the
connection is not the open one. -/
theorem late_phase (h : Ordered config s) (hregistered : Registered s) {call : ChunkCall}
    (hcall : call ∈ s.calls)
    (hlate : call.isLate = true) (hended : s.openConnection ≠ some call.openId) {phase : JobPhase}
    (hrunning : s.running = some ⟨call.write, phase⟩) :
    phase = .ended ∨ ∃ openId chunk result, phase = .unstalled openId chunk result := by
  obtain ⟨w, hw, -, hwid⟩ := h.exists_write (h.callsLt call hcall).1
  rw [← hwid] at hrunning
  have hown : call ∈ s.callsOf w.id := List.mem_filter.mpr ⟨hcall, by simpa using hwid.symm⟩
  have hfits := h.fits w hw phase hrunning
  have hlast : ∀ {openId bytesWritten chunk} {P : ChunkCall → Prop},
      Current config w.payload openId bytesWritten chunk P (s.callsOf w.id) →
        call.openId = openId ∧ P call := by
    rintro openId bytesWritten chunk P ⟨before, last, hcalls, hwritten, -, hP⟩
    rw [hcalls] at hown
    refine ⟨hwritten.sameOpen call hown, ?_⟩
    rcases List.mem_append.mp hown with hbefore | hlast
    · exact absurd (hlate.symm.trans (hwritten.taken call hbefore).2) (by decide)
    · rw [List.mem_singleton.mp hlast]
      exact hP
  cases phase with
  | asking | awaitingAnswer | answered =>
    rw [hfits.2] at hown
    cases hown
  | writing openId bytesWritten chunk due =>
    exact absurd (hlate.symm.trans (hlast hfits.2).2.2) (by decide)
  | settled openId bytesWritten chunk result =>
    cases result with
    | taken => exact absurd (hlate.symm.trans (hlast hfits.2).2.2) (by decide)
    | rejected => exact absurd (hlate.symm.trans (hlast hfits.2).2.2) (by decide)
    | timedOut =>
      rw [(hlast hfits.2).1] at hended
      exact absurd (hregistered.timedOut _ _ _ _ hrunning) hended
  | stalled openId chunk =>
    obtain ⟨bytesWritten, -, hcur⟩ := hfits
    rw [(hlast hcur).1] at hended
    exact absurd (hregistered.stalled _ _ _ hrunning).1 hended
  | unstalled openId chunk result => exact Or.inr ⟨openId, chunk, result, rfl⟩
  | ended => exact Or.inl rfl

/-- **A stalled chunk does not hold a later connection**, as long as every deadline passes while its
chunk's connection is open: whenever the supervisor is open, the running job does not wait past its
deadline on a chunk of another connection; and once a chunk was late and its connection has ended,
its job ends within two microtasks and the next one in the queue begins. -/
theorem stalled_holds_none {events : List WriterEvent} {s : PortWriter}
    (hpass : (writerRuns config).Always (fun s event => passesWhileOpen s event = true) events)
    (hrun : (writerRuns config).run events = some s) :
    (∀ openId, s.openConnection = some openId →
      ∀ id openId' chunk, s.running = some ⟨id, .stalled openId' chunk⟩ →
      openId' = openId) ∧
    ∀ call ∈ s.calls, call.isLate = true → s.openConnection ≠ some call.openId →
      ∀ phase, s.running = some ⟨call.write, phase⟩ →
        ∃ microtasks s', (microtasks = [.finish] ∨ microtasks = [.goOn false, .finish]) ∧
          (writerRuns config).runFrom s microtasks = some s' ∧ NextRuns s s' := by
  have hordered := ordered_of_run hrun
  have hregistered : Registered s := TransitionSystem.run_invariant (registered_of_clear rfl)
    (fun _ _ _ h hpass hstep => h.step hpass hstep) hpass hrun
  refine ⟨fun openId hopen id openId' chunk hrunning => ?_,
    fun call hcall hlate hended phase hrunning => ?_⟩
  · have hown := (hregistered.stalled id openId' chunk hrunning).1
    rw [hopen] at hown
    exact (Option.some.inj hown).symm
  · rcases late_phase hordered hregistered hcall hlate hended hrunning with rfl
      | ⟨openId, chunk, result, rfl⟩
    · obtain ⟨s', hfinish, hnext⟩ := hordered.finish hrunning
      exact ⟨[.finish], s', Or.inl rfl, Option.bind_eq_some_iff.mpr ⟨s', hfinish, rfl⟩, hnext⟩
    · obtain ⟨s', hmicrotasks, hnext⟩ := hordered.goOn_finish hrunning
      exact ⟨[.goOn false, .finish], s', Or.inr rfl, hmicrotasks, hnext⟩

/-- The deadline passes, then the connection is lost and made again, while another write waits. -/
def lostAfterDeadline : List WriterEvent :=
  [.enterState (.open 7 0), .write [1], .startNext, .mayBegin (some true) false, .write [2],
    .tick 100, .deadline, .goOn false,
    .enterState (.reconnecting 0), .enterState .listing, .enterState (.opening 7 1),
    .enterState (.open 7 1)]

theorem stalled_holds_none_lostAfterDeadline :
    ∃ s s', (writerRuns twoBytes).run lostAfterDeadline = some s ∧ s.openConnection = some 1 ∧
      (writerRuns twoBytes).runFrom s [.goOn false, .finish] = some s' ∧
        (∃ phase, s'.running = some ⟨1, phase⟩) := by
  have hsome := (Option.any_eq_true _ _).mp
      (show ((writerRuns twoBytes).run lostAfterDeadline).any (fun s =>
    s.openConnection = some 1 ∧ s.calls = [⟨0, 0, 0, [1], none, true⟩] ∧
      s.running = some ⟨0, .unstalled 0 0 .ended⟩ ∧ s.waiting = [1]) = true by decide)
  obtain ⟨s, hrun, hs⟩ := hsome
  obtain ⟨hopen, hcalls, hrunning, hwaiting⟩ := of_decide_eq_true hs
  have hpass : (writerRuns twoBytes).Always (fun s event => passesWhileOpen s event = true)
      lostAfterDeadline :=
    TransitionSystem.always_of_alwaysFrom passesWhileOpen (by decide)
  obtain ⟨-, hlate⟩ := stalled_holds_none hpass hrun
  have hcall : ⟨0, 0, 0, [1], none, true⟩ ∈ s.calls := hcalls ▸ List.mem_singleton_self _
  obtain ⟨microtasks, s', hmicrotasks, hrun', hnext⟩ :=
    hlate _ hcall rfl (by rw [hopen]; decide) _ hrunning
  have hboth : microtasks = [.goOn false, .finish] := by
    rcases hmicrotasks with rfl | hboth
    · -- the wait is over, but the job has not ended yet
      simp [writerRuns, PortWriter.step, hrunning] at hrun'
    · exact hboth
  exact ⟨s, s', hrun, hopen, hboth ▸ hrun', hnext.2 1 (by rw [hwaiting]; rfl)⟩

/-- The connection is lost and made again, then the deadline passes of a chunk that was written to
it. -/
def lostBeforeDeadline : List WriterEvent :=
  [.enterState (.open 7 0), .write [1], .startNext, .mayBegin (some true) false,
    .enterState (.reconnecting 0), .enterState .listing,
    .enterState (.opening 7 1), .enterState (.open 7 1), .write [2], .tick 100,
    .deadline, .goOn false]

/-- The job registers with the connection that is open, and waits for its end while the next write
is queued. -/
theorem stalled_holds_later_connection :
    ¬ ∀ (config : WriterConfig) (events : List WriterEvent) (s : PortWriter),
      (writerRuns config).run events = some s →
      ∀ openId, s.openConnection = some openId →
      ∀ id openId' chunk, s.running = some ⟨id, .stalled openId' chunk⟩ →
        openId' = openId := by
  intro h
  have hholds : ((writerRuns twoBytes).run lostBeforeDeadline).any (fun s =>
      s.openConnection = some 1 ∧ s.running = some ⟨0, .stalled 0 0⟩ ∧ s.waiting = [1] ∧
        s.isStartScheduled = false) = true := by
    decide
  obtain ⟨s, hrun, hs⟩ := (Option.any_eq_true _ _).mp hholds
  obtain ⟨hopen, hrunning, -, -⟩ := of_decide_eq_true hs
  exact absurd (h _ _ s hrun 1 hopen 0 0 0 hrunning) (by decide)

end PortWriter

end SerialBroker
