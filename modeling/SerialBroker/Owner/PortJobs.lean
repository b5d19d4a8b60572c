import SerialBroker.Owner.WriteJobs

/-!
# The jobs at one port

Every write a port has accepted and not answered is one job: it waits in the queue, is the running
one, or has ended. No request has two jobs, the record of accepted writes has just these in
progress, and a job leaves only by being answered. The deadlines of the jobs were set before the one
`stop()` waits for, so once that has run out nothing is left unanswered.
-/

namespace SerialBroker

/-- What a job keeps from when it is queued. -/
def Job.identity (job : Job) : JobId × WriteKey × Payload := (job.id, job.key, job.payload)

/-- The jobs of unanswered writes, and the record of the writes of the term. -/
structure JobsSound (jobs : List Job) (accepted : AcceptedWrites) (nextJob : JobId) : Prop where
  ids : (jobs.map Job.id).Nodup
  fresh : ∀ job ∈ jobs, job.id < nextJob
  keys : (jobs.map Job.key).Nodup
  inProgress : ∀ key, key ∈ accepted.inProgress ↔ ∃ job ∈ jobs, job.key = key
  notFinished : ∀ job ∈ jobs, KeyedList.lookup FinishedWrite.key job.key accepted.finished = none
  finished : KeyedList.Distinct FinishedWrite.key accepted.finished

namespace JobsSound

variable {jobs jobs' : List Job} {accepted : AcceptedWrites} {nextJob : JobId} {key : WriteKey}
  {payload : Payload}
  {job job' : Job} {outcome : WriteOutcome}

theorem empty : JobsSound [] .empty 0 where
  ids := List.nodup_nil
  fresh _ h := absurd h List.not_mem_nil
  keys := List.nodup_nil
  inProgress key := by simp [AcceptedWrites.empty]
  notFinished _ h := absurd h List.not_mem_nil
  finished := List.nodup_nil

theorem exists_of_perm (hperm : (jobs'.map Job.identity).Perm (jobs.map Job.identity))
    (hjob : job' ∈ jobs') :
    ∃ job ∈ jobs, job.identity = job'.identity :=
  List.mem_map.mp (hperm.mem_iff.mp (List.mem_map_of_mem hjob))

/-- The order of the jobs does not matter, nor what else they keep. -/
theorem perm (h : JobsSound jobs accepted nextJob)
    (hperm : (jobs'.map Job.identity).Perm (jobs.map Job.identity)) :
    JobsSound jobs' accepted nextJob := by
  have hids : (jobs'.map Job.id).Perm (jobs.map Job.id) := by
    have hmapped := hperm.map Prod.fst
    rw [List.map_map, List.map_map] at hmapped
    exact hmapped
  have hkeys : (jobs'.map Job.key).Perm (jobs.map Job.key) := by
    have hmapped := hperm.map fun identity => identity.2.1
    rw [List.map_map, List.map_map] at hmapped
    exact hmapped
  refine ⟨hids.nodup_iff.mpr h.ids, fun job' hjob' => ?_, hkeys.nodup_iff.mpr h.keys, fun key => ?_,
    fun job' hjob' => ?_,
    h.finished⟩
  · obtain ⟨job, hjob, heq⟩ := exists_of_perm hperm hjob'
    have hid : job.id = job'.id := congrArg Prod.fst heq
    exact hid ▸ h.fresh job hjob
  · rw [h.inProgress key]
    have hmem : key ∈ jobs'.map Job.key ↔ key ∈ jobs.map Job.key := hkeys.mem_iff
    simpa only [List.mem_map] using hmem.symm
  · obtain ⟨job, hjob, heq⟩ := exists_of_perm hperm hjob'
    have hkey : job.key = job'.key := congrArg (fun identity => identity.2.1) heq
    exact hkey ▸ h.notFinished job hjob

/-- A request that is not known becomes a job. -/
theorem admitted (h : JobsSound jobs accepted nextJob) {accepted' : AcceptedWrites}
    (hnew : accepted.admitWrite key = (accepted', .new))
    (deadline : DeadlineId) : JobsSound (jobs ++ [⟨nextJob, key, payload, deadline⟩]) accepted'
    (nextJob + 1) := by
  unfold AcceptedWrites.admitWrite at hnew
  split at hnew
  · cases hnew
  next hnot =>
  split at hnew
  · cases hnew
  next hunfinished =>
  obtain rfl := (Prod.mk.inj hnew).1
  refine ⟨?_, fun job hjob => ?_, ?_, fun key' => ?_, fun job hjob => ?_, h.finished⟩
  · rw [List.map_append, List.nodup_append]
    refine ⟨h.ids, List.nodup_singleton _, fun id hid id' hid' => ?_⟩
    obtain ⟨job, hjob, rfl⟩ := List.mem_map.mp hid
    rw [List.mem_singleton.mp hid']
    exact Nat.ne_of_lt (h.fresh job hjob)
  · obtain hjob | hjob := List.mem_append.mp hjob
    · exact Nat.lt_succ_of_lt (h.fresh job hjob)
    · rw [List.mem_singleton.mp hjob]
      exact Nat.lt_succ_self _
  · rw [List.map_append, List.nodup_append]
    refine ⟨h.keys, List.nodup_singleton _, fun k hk k' hk' heq => hnot ?_⟩
    obtain ⟨job, hjob, rfl⟩ := List.mem_map.mp hk
    rw [List.mem_singleton.mp hk'] at heq
    exact (h.inProgress key).mpr ⟨job, hjob, heq⟩
  · rw [List.mem_append, h.inProgress key', List.mem_singleton]
    constructor
    · rintro (⟨job, hjob, hkey⟩ | rfl)
      · exact ⟨job, List.mem_append_left _ hjob, hkey⟩
      · exact ⟨_, List.mem_append_right _ List.mem_cons_self, rfl⟩
    · rintro ⟨job, hjob, rfl⟩
      obtain hjob | hjob := List.mem_append.mp hjob
      · exact Or.inl ⟨job, hjob, rfl⟩
      · rw [List.mem_singleton.mp hjob]
        exact Or.inr rfl
  · obtain hjob | hjob := List.mem_append.mp hjob
    · exact h.notFinished job hjob
    · rw [List.mem_singleton.mp hjob]
      exact hunfinished

end JobsSound

theorem forgetOldest_sublist (finished : List FinishedWrite) :
    (AcceptedWrites.forgetOldest finished).Sublist finished := by
  unfold AcceptedWrites.forgetOldest
  split
  · exact List.tail_sublist finished
  · exact List.Sublist.refl _

theorem lookup_forgetOldest {finished : List FinishedWrite} {key : WriteKey}
    (hnone : KeyedList.lookup FinishedWrite.key key finished = none) :
    KeyedList.lookup FinishedWrite.key key (AcceptedWrites.forgetOldest finished) = none := by
  rw [KeyedList.lookup_eq_none] at hnone ⊢
  exact fun write hwrite => hnone write ((forgetOldest_sublist finished).subset hwrite)

namespace JobsSound

variable {jobs jobs' : List Job} {accepted : AcceptedWrites} {nextJob : JobId} {job : Job}
  {outcome : WriteOutcome}

/-- A job that is answered leaves, and its request is in progress no more. -/
theorem answer (h : JobsSound (job :: jobs) accepted nextJob) :
    JobsSound jobs (accepted.finish job.key outcome) nextJob := by
  have hsub : ∀ job' ∈ jobs, job' ∈ job :: jobs := fun _ => List.mem_cons_of_mem _
  have hother : ∀ job' ∈ jobs, job'.key ≠ job.key := by
    intro job' hjob' heq
    have hnodup := h.keys
    rw [List.map_cons, List.nodup_cons] at hnodup
    exact hnodup.1 (heq ▸ List.mem_map_of_mem hjob')
  have hinProgress : (accepted.finish job.key outcome).inProgress = accepted.inProgress.filter (· ≠
      job.key) := by
    unfold AcceptedWrites.finish
    split <;> rfl
  have hfinished : ∀ key, key ≠ job.key →
      KeyedList.lookup FinishedWrite.key key accepted.finished = none →
      KeyedList.lookup FinishedWrite.key key (accepted.finish job.key outcome).finished = none := by
    intro key hne hnone
    unfold AcceptedWrites.finish
    split
    · exact hnone
    · refine lookup_forgetOldest ?_
      rw [KeyedList.lookup_put, if_neg fun heq => hne heq.symm]
      exact hnone
  have hids := h.ids
  have hkeys := h.keys
  rw [List.map_cons, List.nodup_cons] at hids hkeys
  have hdistinct : KeyedList.Distinct FinishedWrite.key
      (accepted.finish job.key outcome).finished := by
    unfold AcceptedWrites.finish
    split
    · exact h.finished
    · exact h.finished.put_self.sublist ((forgetOldest_sublist _).map _)
  refine ⟨hids.2, fun job' hjob' => h.fresh job' (hsub job' hjob'), hkeys.2, fun key => ?_,
    fun job' hjob' => ?_, hdistinct⟩
  · rw [hinProgress, List.mem_filter, h.inProgress key]
    constructor
    · rintro ⟨⟨job', hjob', rfl⟩, hne⟩
      obtain rfl | hjob' := List.mem_cons.mp hjob'
      · simp at hne
      · exact ⟨job', hjob', rfl⟩
    · rintro ⟨job', hjob', rfl⟩
      exact ⟨⟨job', hsub job' hjob', rfl⟩, by simpa using hother job' hjob'⟩
  · exact hfinished _ (hother job' hjob') (h.notFinished job' (hsub job' hjob'))

end JobsSound

/-! ### what a port keeps -/

namespace Holder

variable {h : Holder} {tab : ClientId} {job : Job} {key : WriteKey} {payload : Payload}
  {outcome : WriteOutcome}
  {connection : ConnectionId} {question : QuestionId} {deadline : DeadlineId}

/-- The running job, unless it has been answered. -/
def runningJobs (h : Holder) : List Job :=
  match h.running with
  | some ⟨_, .stalled _⟩ | none => []
  | some running => [running.job]

theorem unanswered_eq (h : Holder) :
    h.unanswered = h.waiting ++ h.runningJobs ++ h.ended.map EndedJob.job := rfl

/-- What holds of a term's port at every moment; `tab` is the tab that holds it. -/
structure Sound (tab : ClientId) (h : Holder) : Prop where
  jobs : JobsSound h.unanswered h.accepted h.nextJob
  deadlines : ∀ job ∈ h.waiting ++ h.runningJobs, job.deadline < h.nextDeadline ∧
    ∀ deadline, h.stage = .answering deadline → job.deadline < deadline
  asking : ∀ job question, h.running = some ⟨job, .asking question⟩ →
    job.key.origin ≠ tab ∧ question < h.nextQuestion ∧
      KeyedList.lookup AwaitedApproval.key job.key h.awaited = some ⟨job.key, question⟩
  questions : KeyedList.Distinct AwaitedApproval.question h.awaited ∧
    ∀ awaited ∈ h.awaited, awaited.question < h.nextQuestion
  connection : h.stage ≠ .serving → h.connection = none
  stopped : h.stage = .stopped → h.unanswered = []

theorem init_sound (term : TermId) : (init term).Sound tab where
  jobs := JobsSound.empty
  deadlines _ h := absurd h List.not_mem_nil
  asking _ _ h := by cases h
  questions := ⟨List.nodup_nil, fun _ h => absurd h List.not_mem_nil⟩
  connection h := absurd rfl h
  stopped h := by cases h

theorem Sound.of_serving (hs : h.Sound tab) {c : ConnectionId}
    (hconnection : h.connection = some c) : h.stage = .serving := by
  by_contra hstage
  rw [hs.connection hstage] at hconnection
  cases hconnection

variable {h' : Holder}

/-- Jobs that go on, with deadlines set only while no stop waits for them. -/
theorem Sound.rearranged (hs : h.Sound tab)
    (hjobs : (h'.unanswered.map Job.identity).Perm (h.unanswered.map Job.identity))
    (hsame : h'.accepted = h.accepted ∧ h'.nextJob = h.nextJob ∧ h'.stage = h.stage)
    (hdeadlines : ∀ job ∈ h'.waiting ++ h'.runningJobs,
      job ∈ h.waiting ++ h.runningJobs ∨ job.deadline < h'.nextDeadline ∧ h.isTornDown = false)
    (hnext : h.nextDeadline ≤ h'.nextDeadline)
    (hasking : ∀ job question, h'.running = some ⟨job, .asking question⟩ →
      job.key.origin ≠ tab ∧ question < h'.nextQuestion ∧
        KeyedList.lookup AwaitedApproval.key job.key h'.awaited = some ⟨job.key, question⟩)
    (hquestions : KeyedList.Distinct AwaitedApproval.question h'.awaited ∧
      ∀ awaited ∈ h'.awaited, awaited.question < h'.nextQuestion)
    (hconnection : h'.connection = h.connection ∨ h'.connection = none) : h'.Sound tab where
  jobs := by
    rw [hsame.1, hsame.2.1]
    exact hs.jobs.perm hjobs
  deadlines job hjob := by
    rw [hsame.2.2]
    obtain hjob | ⟨hdeadline, hnot⟩ := hdeadlines job hjob
    · obtain ⟨hbefore, hanswering⟩ := hs.deadlines job hjob
      exact ⟨Nat.lt_of_lt_of_le hbefore hnext, hanswering⟩
    · refine ⟨hdeadline, fun deadline hstage => ?_⟩
      rw [isTornDown, hstage] at hnot
      cases hnot
  asking := hasking
  questions := hquestions
  connection hstage := by
    rw [hsame.2.2] at hstage
    obtain heq | hnone := hconnection
    · exact heq.trans (hs.connection hstage)
    · exact hnone
  stopped hstage := by
    rw [hsame.2.2] at hstage
    rw [hs.stopped hstage] at hjobs
    exact List.map_eq_nil_iff.mp (List.perm_nil.mp hjobs)

theorem runningJobs_of_running {running : RunningJob} (hrunning : h.running = some running)
    (hstage : ∀ c, running.stage ≠ .stalled c) :
    h.runningJobs = [running.job] := by
  obtain ⟨job, stage⟩ := running
  unfold runningJobs
  rw [hrunning]
  cases stage with
  | stalled c => exact absurd rfl (hstage c)
  | asking | answered | writing => rfl

theorem runningJobs_of_none (hrunning : h.running = none) : h.runningJobs = [] := by
  unfold runningJobs
  rw [hrunning]

/-! ### each thing a port does with its jobs -/

theorem Sound.enqueue (hs : h.Sound tab) (hserving : h.stage = .serving) {accepted : AcceptedWrites}
    (hnew : h.accepted.admitWrite key = (accepted, .new)) :
    (({ h with accepted } : Holder).enqueue key payload).Sound tab where
  jobs := by
    have hadmitted : JobsSound (h.unanswered ++ [⟨h.nextJob, key, payload, h.nextDeadline⟩])
        accepted (h.nextJob + 1) :=
      hs.jobs.admitted hnew h.nextDeadline
    refine hadmitted.perm ?_
    simp only [Holder.enqueue, unanswered_eq, runningJobs, List.map_append, List.append_assoc]
    refine List.Perm.append_left _ ?_
    rw [← List.append_assoc (List.map Job.identity _) _ (List.map Job.identity [_])]
    exact List.perm_append_comm
  deadlines job hjob := by
    refine ⟨?_, fun deadline hstage => by cases hserving.symm.trans hstage⟩
    obtain hjob | hjob := List.mem_append.mp hjob
    · obtain hjob | hjob := List.mem_append.mp hjob
      · exact Nat.lt_succ_of_lt (hs.deadlines job (List.mem_append_left _ hjob)).1
      · rw [List.mem_singleton.mp hjob]
        exact Nat.lt_succ_self _
    · exact Nat.lt_succ_of_lt (hs.deadlines job (List.mem_append_right _ hjob)).1
  asking := hs.asking
  questions := hs.questions
  connection hstage := absurd hserving hstage
  stopped hstage := by cases hserving.symm.trans hstage

/-- The first job of the queue ends before it was asked about. -/
theorem Sound.endFirst (hs : h.Sound tab) {rest : List Job} (hwaiting : h.waiting = job :: rest)
    (hrunning : h.running = none) :
    (({ h with waiting := rest } : Holder).endJob job outcome).Sound tab := by
  refine hs.rearranged ?_ ⟨rfl, rfl, rfl⟩ (fun j hj => Or.inl ?_) (Nat.le_refl _)
    (fun _ _ heq => by cases heq) hs.questions (Or.inl rfl)
  · simp only [unanswered_eq, endJob, runningJobs, hwaiting, hrunning, List.append_nil,
      List.map_append, List.map_cons, List.map_nil]
    rw [List.cons_append, ← List.append_assoc]
    exact List.perm_append_comm
  · rw [runningJobs_of_none rfl, List.append_nil] at hj
    rw [hwaiting]
    exact List.mem_append_left _ (List.mem_cons_of_mem _ hj)

/-- The first job of the queue becomes the running one. -/
theorem Sound.runFirst (hs : h.Sound tab) {rest : List Job} (hwaiting : h.waiting = job :: rest)
    (hrunning : h.running = none)
    (running : RunningJob) {awaited : List AwaitedApproval} {nextQuestion : QuestionId}
    {nextDeadline : DeadlineId}
    (hjob : running.job.identity = job.identity) (hstage : ∀ c, running.stage ≠ .stalled c)
    (hdeadline : running.job = job ∨ running.job.deadline < nextDeadline ∧ h.isTornDown = false)
    (hnext : h.nextDeadline ≤ nextDeadline)
    (hasking : ∀ question, running.stage = .asking question →
      running.job.key.origin ≠ tab ∧ question < nextQuestion ∧
      KeyedList.lookup AwaitedApproval.key running.job.key awaited = some ⟨running.job.key,
        question⟩)
    (hquestions : KeyedList.Distinct AwaitedApproval.question awaited ∧
      ∀ a ∈ awaited, a.question < nextQuestion) :
    ({ h with
    waiting := rest
    running := some running
    awaited
    nextQuestion
    nextDeadline } : Holder).Sound tab := by
  have hjobs : ({ h with
      waiting := rest
      running := some running
      awaited
      nextQuestion
      nextDeadline } : Holder).runningJobs =
      [running.job] := runningJobs_of_running rfl hstage
  refine hs.rearranged ?_ ⟨rfl, rfl, rfl⟩ (fun j hj => ?_) hnext (fun j question heq => ?_)
    hquestions (Or.inl rfl)
  · rw [unanswered_eq, unanswered_eq, hjobs, runningJobs_of_none hrunning, hwaiting]
    simp only [List.append_nil, List.map_append, List.map_cons, List.map_nil, hjob]
    refine List.Perm.append_right _ ?_
    exact List.perm_append_comm
  · rw [hjobs] at hj
    obtain hj | hj := List.mem_append.mp hj
    · rw [hwaiting]
      exact Or.inl (List.mem_append_left _ (List.mem_cons_of_mem _ hj))
    · rw [List.mem_singleton.mp hj, hwaiting]
      refine hdeadline.imp_left fun heq => ?_
      rw [heq]
      exact List.mem_append_left _ List.mem_cons_self
  · obtain rfl := Option.some.inj heq
    exact hasking question rfl

/-- The running job goes on. -/
theorem Sound.goOnRunning (hs : h.Sound tab) {running : RunningJob} (running' : RunningJob)
    (hrunning : h.running = some running)
    (hnot : ∀ c, running.stage ≠ .stalled c) (hnot' : ∀ c, running'.stage ≠ .stalled c)
    {nextDeadline : DeadlineId} {awaited : List AwaitedApproval}
    (hjob : running'.job.identity = running.job.identity)
    (hdeadline : running'.job = running.job ∨ running'.job.deadline < nextDeadline ∧
      h.isTornDown = false)
    (hnext : h.nextDeadline ≤ nextDeadline)
    (hasking : ∀ question, running'.stage ≠ .asking question)
    (hawaited : awaited.Sublist h.awaited) :
    ({ h with running := some running', awaited, nextDeadline } : Holder).Sound tab := by
  have hjobs : ({ h with
      running := some running', awaited, nextDeadline } : Holder).runningJobs = [running'.job] :=
    runningJobs_of_running rfl hnot'
  refine hs.rearranged ?_ ⟨rfl, rfl, rfl⟩ (fun j hj => ?_) hnext (fun j question heq => ?_)
    ⟨(hawaited.map _).nodup hs.questions.1, fun a ha =>
      hs.questions.2 a (hawaited.subset ha)⟩ (Or.inl rfl)
  · rw [unanswered_eq, unanswered_eq, hjobs, runningJobs_of_running hrunning hnot]
    simp only [List.map_append, List.map_cons, List.map_nil, hjob]
    exact List.Perm.refl _
  · rw [hjobs] at hj
    obtain hj | hj := List.mem_append.mp hj
    · exact Or.inl (List.mem_append_left _ hj)
    · rw [List.mem_singleton.mp hj, runningJobs_of_running hrunning hnot]
      refine hdeadline.imp_left fun heq => ?_
      rw [heq]
      exact List.mem_append_right _ List.mem_cons_self
  · obtain rfl := Option.some.inj heq
    exact absurd rfl (hasking question)

/-- The running job ends; the queue goes on, or is held by what the port still has to do with it. -/
theorem Sound.endRunning (hs : h.Sound tab) {running : RunningJob}
    (hrunning : h.running = some running)
    (hnot : ∀ c, running.stage ≠ .stalled c) {running' : Option RunningJob}
    (hnone : ∀ r, running' = some r → ∃ c, r.stage = .stalled c)
    {c : Option ConnectionId} (hconnection : c = h.connection ∨ c = none) :
    ({ h with
    running := running'
    ended := h.ended ++ [⟨running.job, outcome⟩]
    connection := c } : Holder).Sound tab := by
  have hjobs : ({ h with
      running := running'
      ended := h.ended ++ [⟨running.job, outcome⟩]
      connection := c } : Holder).runningJobs = [] := by
    unfold runningJobs
    cases running' with
    | none => rfl
    | some r =>
      obtain ⟨job, stage⟩ := r
      obtain ⟨c, rfl⟩ := hnone _ rfl
      rfl
  refine hs.rearranged ?_ ⟨rfl, rfl, rfl⟩ (fun j hj => Or.inl ?_) (Nat.le_refl _)
    (fun j question heq => ?_) hs.questions hconnection
  · rw [unanswered_eq, unanswered_eq, hjobs, runningJobs_of_running hrunning hnot]
    simp only [List.append_nil, List.map_append, List.map_cons, List.map_nil, List.append_assoc]
    refine List.Perm.append_left _ ?_
    exact List.perm_append_comm
  · rw [hjobs, List.append_nil] at hj
    exact List.mem_append_left _ hj
  · obtain ⟨c, hstage⟩ := hnone _ heq
    cases hstage

/-- What does not concern the jobs. -/
theorem Sound.withConnection (hs : h.Sound tab) {connection : Option ConnectionId}
    {nextConnection : ConnectionId}
    (hconnection : h.stage = .serving ∨ connection = none) : ({ h with
    connection
    nextConnection } : Holder).Sound tab :=
  { hs with connection := fun hstage => hconnection.resolve_left hstage }

/-- A stalled job holds the queue no more. -/
theorem Sound.stallEnded (hs : h.Sound tab) {c : ConnectionId}
    (hrunning : h.running = some ⟨job, .stalled c⟩) :
    ({ h with running := none } : Holder).Sound tab := by
  have hjobs : h.runningJobs = [] := by
    unfold runningJobs
    rw [hrunning]
  refine hs.rearranged ?_ ⟨rfl, rfl, rfl⟩ (fun j hj => Or.inl ?_) (Nat.le_refl _)
    (fun _ _ heq => by cases heq) hs.questions (Or.inl rfl)
  · rw [unanswered_eq, unanswered_eq, hjobs]
    exact List.Perm.refl _
  · rw [runningJobs_of_none rfl, List.append_nil] at hj
    exact List.mem_append_left _ hj

/-- The list without the one job of an id. -/
theorem perm_cons_filter {jobs : List Job} (hids : (jobs.map Job.id).Nodup) (hjob : job ∈ jobs) :
    (job :: jobs.filter fun j => j.id ≠ job.id).Perm jobs := by
  obtain ⟨l, r, rfl⟩ := List.append_of_mem hjob
  have hdistinct : KeyedList.Distinct Job.id (l ++ job :: r) := hids
  have hl : ∀ j ∈ l ++ r, j.id ≠ job.id := hdistinct.ne_of_split
  have hfilter : (l ++ job :: r).filter (fun j => j.id ≠ job.id) = l ++ r := by
    rw [List.filter_append, List.filter_cons, if_neg (by simp), ← List.filter_append]
    exact List.filter_eq_self.mpr fun j hj => by simpa using hl j hj
  rw [hfilter]
  exact List.perm_middle.symm

/-- A job runs out of time in the queue. -/
theorem Sound.jobExpired (hs : h.Sound tab) (hjob : job ∈ h.waiting) :
    ({ h with
    waiting := KeyedList.erase Job.id job.id h.waiting
    ended := h.ended ++ [⟨job, outcome⟩] } : Holder).Sound tab := by
  have hsub : (h.waiting.map Job.id).Sublist (h.unanswered.map Job.id) := by
    rw [unanswered_eq, List.append_assoc]
    exact (List.sublist_append_left _ _).map _
  have hperm : (job :: KeyedList.erase Job.id job.id h.waiting).Perm h.waiting :=
    perm_cons_filter (hsub.nodup hs.jobs.ids) hjob
  refine hs.rearranged ?_ ⟨rfl, rfl, rfl⟩ (fun j hj => Or.inl ?_) (Nat.le_refl _) hs.asking
    hs.questions (Or.inl rfl)
  · simp only [unanswered_eq, List.map_append, List.map_cons, List.map_nil]
    rw [← List.append_assoc]
    refine List.perm_append_comm.trans ?_
    rw [← List.append_assoc, ← List.append_assoc]
    refine List.Perm.append_right _ (List.Perm.append_right _ ?_)
    simpa only [List.singleton_append, List.map_cons] using hperm.map Job.identity
  · obtain hj | hj := List.mem_append.mp hj
    · exact List.mem_append_left _ (KeyedList.mem_erase.mp hj).1
    · exact List.mem_append_right _ hj

/-- A job that has ended is answered. -/
theorem Sound.answerJob (hs : h.Sound tab) {ended : EndedJob} (hended : ended ∈ h.ended)
    {awaited : List AwaitedApproval}
    (hawaited : ∀ key, key ≠ ended.job.key →
      KeyedList.lookup AwaitedApproval.key key awaited = KeyedList.lookup AwaitedApproval.key
        key h.awaited)
    (hsublist : awaited.Sublist h.awaited) :
    ({ h with
      ended := h.ended.filter fun e => e.job.id ≠ ended.job.id
      accepted := h.accepted.finish ended.job.key ended.outcome
      awaited } : Holder).Sound tab := by
  have hsub : ((h.ended.map EndedJob.job).map Job.id).Sublist (h.unanswered.map Job.id) := by
    rw [unanswered_eq]
    exact (List.sublist_append_right _ _).map _
  have hfilter : (h.ended.filter fun e => e.job.id ≠ ended.job.id).map EndedJob.job =
      (h.ended.map EndedJob.job).filter fun j => j.id ≠ ended.job.id := by
    rw [List.filter_map]
    rfl
  have hperm : (ended.job :: (h.ended.filter fun e => e.job.id ≠ ended.job.id).map
      EndedJob.job).Perm (h.ended.map EndedJob.job) := by
    rw [hfilter]
    exact perm_cons_filter (hsub.nodup hs.jobs.ids) (List.mem_map_of_mem hended)
  have hall : (ended.job ::
    (h.waiting ++ h.runningJobs ++ (h.ended.filter fun e => e.job.id ≠ ended.job.id).map
    EndedJob.job)).Perm
      h.unanswered := by
    rw [unanswered_eq]
    exact List.perm_middle.symm.trans (List.Perm.append_left _ hperm)
  have hmem : ended.job ∈ h.unanswered := by
    rw [unanswered_eq]
    exact List.mem_append_right _ (List.mem_map_of_mem hended)
  refine ⟨(hs.jobs.perm (hall.map _)).answer, hs.deadlines, fun job question hrunning => ?_,
    ⟨(hsublist.map _).nodup hs.questions.1, fun a ha => hs.questions.2 a (hsublist.subset ha)⟩,
    hs.connection, fun hstage => ?_⟩
  · obtain ⟨horigin, hquestion, hlookup⟩ := hs.asking job question hrunning
    refine ⟨horigin, hquestion, ?_⟩
    rw [hawaited job.key fun hkey => ?_]
    · exact hlookup
    have hnodup := (hs.jobs.perm (hall.map _)).keys
    rw [List.map_cons, List.nodup_cons] at hnodup
    have hrun : job ∈ h.runningJobs := by
      rw [runningJobs_of_running (h := h) hrunning fun _ heq => by cases heq]
      exact List.mem_cons_self
    exact hnodup.1 (hkey ▸
      List.mem_map_of_mem (List.mem_append_left _ (List.mem_append_right _ hrun)))
  · rw [hs.stopped hstage] at hmem
    exact absurd hmem List.not_mem_nil

/-- Nothing is asked any more, and no connection is open. -/
theorem Sound.stop (hs : h.Sound tab) : h.stop.Sound tab := by
  have hjobs : h.stop.runningJobs = h.runningJobs := by
    unfold Holder.stop runningJobs
    cases hrunning : h.running with
    | none => rfl
    | some running =>
      obtain ⟨job, stage⟩ := running
      cases stage <;> rfl
  have hunanswered : h.stop.unanswered = h.unanswered := by
    rw [unanswered_eq, unanswered_eq, hjobs]
    rfl
  refine ⟨?_, fun job hjob => ⟨?_, fun _ heq => by cases heq⟩, fun job question hrunning => ?_,
    hs.questions,
    fun _ => rfl, fun heq => by cases heq⟩
  · rw [hunanswered]
    exact hs.jobs
  · rw [hjobs] at hjob
    exact (hs.deadlines job hjob).1
  · unfold Holder.stop at hrunning
    dsimp only at hrunning
    split at hrunning
    · cases hrunning
    · next hnot => exact absurd hrunning (hnot job question)

/-- The streams have been released, and the stop waits for the answers. -/
theorem Sound.tornDown (hs : h.Sound tab) (hstopping : h.stage = .stopping) :
    ({ h with
    stage := .answering h.nextDeadline
    nextDeadline := h.nextDeadline + 1 } : Holder).Sound tab where
  jobs := hs.jobs
  deadlines job hjob := by
    have hbefore := (hs.deadlines job hjob).1
    refine ⟨Nat.lt_succ_of_lt hbefore, fun deadline heq => ?_⟩
    obtain rfl := HolderStage.answering.inj heq
    exact hbefore
  asking := hs.asking
  questions := hs.questions
  connection _ := hs.connection (by rw [hstopping]; decide)
  stopped heq := by cases heq

/-- Once the deadlines set before have run out, nothing is unanswered. -/
theorem Sound.unanswered_of_hasRunOut (hs : h.Sound tab) (hstage : h.stage = .answering deadline)
    (hout : h.hasRunOut deadline = true) :
    h.unanswered = [] := by
  simp only [hasRunOut, Bool.and_eq_true, List.isEmpty_iff, List.all_eq_true,
    decide_eq_true_eq] at hout
  obtain ⟨⟨hended, hwaiting⟩, hrunning⟩ := hout
  have hbefore : ∀ job ∈ h.waiting ++ h.runningJobs, ¬ deadline ≤ job.deadline := fun job hjob =>
    Nat.not_le.mpr ((hs.deadlines job hjob).2 deadline hstage)
  have hnoneWaiting : h.waiting = [] := List.eq_nil_iff_forall_not_mem.mpr fun job hjob =>
    hbefore job (List.mem_append_left _ hjob) (hwaiting job hjob)
  have hnoneRunning : h.runningJobs = [] := by
    refine List.eq_nil_iff_forall_not_mem.mpr fun job hjob =>
      hbefore job (List.mem_append_right _ hjob) ?_
    unfold runningJobs at hjob
    split at hjob
    · exact absurd hjob List.not_mem_nil
    · exact absurd hjob List.not_mem_nil
    · next running hstalled heq =>
      obtain ⟨j, stage⟩ := running
      rw [List.mem_singleton.mp hjob]
      rw [heq] at hrunning
      cases stage with
      | asking | writing => simpa using hrunning
      | answered => cases hrunning
      | stalled c => exact absurd rfl (hstalled _ _)
  rw [unanswered_eq, hnoneWaiting, hnoneRunning, hended]
  rfl

theorem Sound.stopped_of_unanswered (hs : h.Sound tab) (hstage : h.stage ≠ .serving)
    (hnone : h.unanswered = []) :
    ({ h with stage := .stopped } : Holder).Sound tab where
  jobs := hs.jobs
  deadlines job hjob := ⟨(hs.deadlines job hjob).1, fun _ heq => by cases heq⟩
  asking := hs.asking
  questions := hs.questions
  connection _ := hs.connection hstage
  stopped _ := hnone

end Holder

end SerialBroker
