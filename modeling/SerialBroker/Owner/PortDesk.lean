import SerialBroker.Client.PortMoves
import SerialBroker.Lib.Entrusting

/-!
# What a port has of one write

A port is a server in the sense of `Entrusting`, and a write a task: the port has at most one job of
it, at some stage, or remembers how it ended. Whatever happens to a job at the port is a step of its
own write, and leaves every other write where it was.
-/

namespace SerialBroker

open Entrusting (Stage Desk Rules)

/-- Writes as tasks: what is done of one is counted in bytes. -/
def writeRules : Rules Payload WriteOutcome where
  size payload := payload.length
  success := none
  unbegun outcome := outcome.isUnbegun = true
  handsBack outcome := outcome.isNotConnected = true
  unbegun_of_handsBack outcome h := by
    cases outcome with
    | none => cases h
    | some error =>
      have hcode : error.code = .NOT_CONNECTED := by simpa [WriteOutcome.isNotConnected] using h
      simp [WriteOutcome.isUnbegun, hcode]
  begun_success := by simp [WriteOutcome.isUnbegun]

/-- A job at a port: whose it is, and how far it has got. -/
structure WriteEntry where
  key : WriteKey
  job : Entrusting.Job Payload WriteOutcome

namespace Holder

variable {h h' : Holder} {tab : ClientId} {job job' : Job} {key : WriteKey} {payload : Payload}
  {outcome : WriteOutcome}
  {rest : List Job} {running : RunningJob} {stage : Stage WriteOutcome}

def entry (job : Job) (stage : Stage WriteOutcome) : WriteEntry := ⟨job.key, job.payload, stage⟩

/-- The entry of the running job, unless it has been answered. -/
def runningEntries (h : Holder) : List WriteEntry :=
  match h.running with
  | some ⟨job, .asking question⟩ => [entry job (.asking question)]
  | some ⟨job, .answered isApproved⟩ => [entry job (.answered isApproved)]
  | some ⟨job, .writing _ bytesWritten⟩ => [entry job (.working bytesWritten)]
  | some ⟨_, .stalled _⟩ | none => []

/-- The jobs of a port with their stages. -/
def entries (h : Holder) : List WriteEntry :=
  h.waiting.map (entry · .waiting) ++ h.runningEntries ++ h.ended.map fun ended =>
    entry ended.job (.ended ended.outcome)

/-- What the port has of a write. -/
def desk (h : Holder) (key : WriteKey) : Desk TermId Payload WriteOutcome where
  term := h.term
  job := (KeyedList.lookup WriteEntry.key key h.entries).map WriteEntry.job
  recorded := (KeyedList.lookup FinishedWrite.key key h.accepted.finished).map FinishedWrite.outcome
  nextQuestion := h.nextQuestion

theorem desk_eq (hsame : h'.term = h.term ∧ h'.nextQuestion = h.nextQuestion) (key : WriteKey) :
    h'.desk key = ⟨h.term, (h'.desk key).job, (h'.desk key).recorded, h.nextQuestion⟩ := by
  rw [← hsame.1, ← hsame.2]
  rfl

theorem keys_entries (h : Holder) : h.entries.map WriteEntry.key = h.unanswered.map Job.key := by
  have hrunning : h.runningEntries.map WriteEntry.key = h.runningJobs.map Job.key := by
    unfold runningEntries runningJobs
    cases h.running with
    | none => rfl
    | some running =>
      obtain ⟨job, stage⟩ := running
      cases stage <;> rfl
  simp only [entries, unanswered_eq, List.map_append, List.map_map, hrunning]
  rfl

theorem exists_entry (hjob : job ∈ h.unanswered) : ∃ stage, entry job stage ∈ h.entries := by
  rw [unanswered_eq] at hjob
  unfold entries
  rcases List.mem_append.mp hjob with hjob | hjob
  · rcases List.mem_append.mp hjob with hjob | hjob
    · exact ⟨.waiting, List.mem_append_left _ (List.mem_append_left _ (List.mem_map_of_mem hjob))⟩
    · suffices hrunning : ∃ stage, entry job stage ∈ h.runningEntries from
        hrunning.imp fun _ hmem => List.mem_append_left _ (List.mem_append_right _ hmem)
      unfold runningJobs at hjob
      unfold runningEntries
      cases hrunning : h.running with
      | none =>
        rw [hrunning] at hjob
        exact absurd hjob List.not_mem_nil
      | some running =>
        obtain ⟨current, stage⟩ := running
        rw [hrunning] at hjob
        cases stage with
        | stalled => exact absurd hjob List.not_mem_nil
        | asking question => exact ⟨_, List.mem_singleton.mpr (by rw [List.mem_singleton.mp hjob])⟩
        | answered isApproved =>
          exact ⟨_, List.mem_singleton.mpr (by rw [List.mem_singleton.mp hjob])⟩
        | writing => exact ⟨_, List.mem_singleton.mpr (by rw [List.mem_singleton.mp hjob])⟩
  · obtain ⟨ended, hended, rfl⟩ := List.mem_map.mp hjob
    exact ⟨.ended ended.outcome, List.mem_append_right _ (List.mem_map.mpr ⟨ended, hended, rfl⟩)⟩

theorem Sound.distinct (hs : h.Sound tab) : KeyedList.Distinct WriteEntry.key h.entries := by
  rw [KeyedList.Distinct, keys_entries]
  exact hs.jobs.keys

theorem Sound.job_desk (hs : h.Sound tab) (hjob : job ∈ h.unanswered) :
    ∃ stage, (h.desk job.key).job = some ⟨job.payload, stage⟩ := by
  obtain ⟨stage, hentry⟩ := exists_entry hjob
  refine ⟨stage, ?_⟩
  have hlookup : KeyedList.lookup WriteEntry.key job.key h.entries = some (entry job stage) :=
    hs.distinct.lookup hentry
  rw [desk, hlookup]
  rfl

/-- The port has a job of the write exactly where its record says so. -/
theorem Sound.job_desk_eq_none (hs : h.Sound tab) :
    (h.desk key).job = none ↔ key ∉ h.accepted.inProgress := by
  rw [hs.jobs.inProgress key, ← List.mem_map, ← keys_entries, desk, Option.map_eq_none_iff,
    KeyedList.lookup_eq_none, List.mem_map]
  simp

/-- One job goes from one stage to another, and the others stay where they are. -/
theorem desk_moved (hs : h.Sound tab) (h' : Holder) (hterm : h'.term = h.term)
    (hfinished : h'.accepted.finished = h.accepted.finished)
    (hidentity : job'.identity = job.identity) {stage stage' : Stage WriteOutcome}
    {others : List WriteEntry}
    (hbefore : h.entries.Perm (entry job stage :: others))
    (hafter : h'.entries.Perm (entry job' stage' :: others)) (key : WriteKey) :
    (job.key = key ∧ (h.desk key).job = some ⟨job.payload, stage⟩ ∧
      h'.desk key =
        { (h.desk key).withStage job.payload stage' with nextQuestion := h'.nextQuestion }) ∨
    job.key ≠ key ∧ h'.desk key = { h.desk key with nextQuestion := h'.nextQuestion } := by
  have hkey : job'.key = job.key := congrArg (fun identity => identity.2.1) hidentity
  have hpayload : job'.payload = job.payload := congrArg (fun identity => identity.2.2) hidentity
  have hdistinct' : KeyedList.Distinct WriteEntry.key h'.entries := by
    have hkeys : (h'.entries.map WriteEntry.key).Perm (h.entries.map WriteEntry.key) := by
      refine (hafter.map _).trans (List.Perm.trans ?_ (hbefore.map _).symm)
      rw [List.map_cons, List.map_cons]
      exact List.Perm.of_eq (by rw [entry, entry, hkey])
    exact hkeys.nodup_iff.mpr hs.distinct
  have hjob : (h.desk key).job = if job.key = key then some ⟨job.payload, stage⟩
      else (KeyedList.lookup WriteEntry.key key others).map WriteEntry.job := by
    rw [desk, hs.distinct.lookup_perm hbefore, KeyedList.lookup_cons]
    split
    · next heq =>
      have heq : job.key = key := heq
      rw [if_pos heq]
      rfl
    · next heq =>
      have heq : job.key ≠ key := heq
      rw [if_neg heq]
  have hjob' : (h'.desk key).job = if job.key = key then some ⟨job.payload, stage'⟩
      else (KeyedList.lookup WriteEntry.key key others).map WriteEntry.job := by
    rw [desk, hdistinct'.lookup_perm hafter, KeyedList.lookup_cons]
    split
    · next heq =>
      have heq : job'.key = key := heq
      rw [if_pos (hkey.symm.trans heq), entry, Option.map_some, hpayload]
    · next heq =>
      have heq : job'.key ≠ key := heq
      rw [if_neg fun h => heq (hkey.trans h)]
  have hrecorded : (h'.desk key).recorded = (h.desk key).recorded := by rw [desk, desk, hfinished]
  have hsame : h'.desk key = ⟨h.term, (h'.desk key).job, (h.desk key).recorded,
      h'.nextQuestion⟩ := by
    rw [← hrecorded, ← hterm]
    rfl
  by_cases heq : job.key = key
  · rw [if_pos heq] at hjob hjob'
    refine Or.inl ⟨heq, hjob, ?_⟩
    rw [hsame, hjob']
    rfl
  · rw [if_neg heq] at hjob hjob'
    refine Or.inr ⟨heq, ?_⟩
    rw [hsame, hjob', ← hjob]
    rfl

/-! ### the stages of a job -/

theorem entries_of_first (hwaiting : h.waiting = job :: rest) (hrunning : h.running = none) :
    h.entries = entry job .waiting :: (rest.map (entry · .waiting) ++ h.ended.map fun ended =>
      entry ended.job (.ended ended.outcome)) := by
  simp [entries, runningEntries, hwaiting, hrunning]

theorem entries_of_running (hrunning : h.runningEntries = [entry job stage]) :
    h.entries.Perm (entry job stage ::
    (h.waiting.map (entry · .waiting) ++ h.ended.map fun ended =>
      entry ended.job (.ended ended.outcome))) := by
  rw [entries, hrunning, List.append_assoc]
  exact List.perm_middle

theorem entries_endJob (h : Holder) (job : Job) (outcome : WriteOutcome)
    {running : Option RunningJob} {connection : Option ConnectionId}
    (hrunning : ({ h with running } : Holder).runningEntries = []) :
    ({ h with running, ended := h.ended ++ [⟨job, outcome⟩], connection } : Holder).entries.Perm
    (entry job (.ended outcome) ::
      (h.waiting.map (entry · .waiting) ++ h.ended.map fun ended =>
        entry ended.job (.ended ended.outcome))) := by
  have hnone : ({ h with
    running
    ended := h.ended ++ [⟨job, outcome⟩]
    connection } : Holder).runningEntries = [] := hrunning
  rw [entries, hnone]
  simp only [List.map_append, List.map_cons, List.map_nil, List.append_nil]
  rw [← List.append_assoc]
  exact List.perm_append_comm

/-- How one job goes on, as every write sees it. -/
structure Moved (h h' : Holder) (job : Job) (stage stage' : Stage WriteOutcome) : Prop where
  next : h'.nextQuestion = h.nextQuestion
  desk : ∀ key, (job.key = key ∧ (h.desk key).job = some ⟨job.payload, stage⟩ ∧
      h'.desk key = (h.desk key).withStage job.payload stage') ∨
        job.key ≠ key ∧ h'.desk key = h.desk key

theorem Moved.of_entries (hs : h.Sound tab)
    (hsame : h'.term = h.term ∧ h'.accepted.finished = h.accepted.finished ∧
      h'.nextQuestion = h.nextQuestion)
    (hidentity : job'.identity = job.identity) {stage stage' : Stage WriteOutcome}
    {others : List WriteEntry} (hbefore : h.entries.Perm (entry job stage :: others))
    (hafter : h'.entries.Perm (entry job' stage' :: others)) :
    Moved h h' job stage stage' := by
  obtain ⟨hterm, hfinished, hnext⟩ := hsame
  refine ⟨hnext, fun key => ?_⟩
  obtain ⟨hkey, hjob, heq⟩ | ⟨hkey, heq⟩ :=
    desk_moved hs h' hterm hfinished hidentity hbefore hafter key
  · rw [hnext] at heq
    exact Or.inl ⟨hkey, hjob, heq⟩
  · rw [hnext] at heq
    exact Or.inr ⟨hkey, heq⟩

theorem Moved.of_running (hs : h.Sound tab) {jobStage jobStage' : JobStage}
    (hrunning : h.running = some ⟨job, jobStage⟩) (h' : Holder)
    (hsame : h'.waiting = h.waiting ∧ h'.running = some ⟨job', jobStage'⟩ ∧ h'.ended = h.ended ∧
      h'.term = h.term ∧
      h'.accepted.finished = h.accepted.finished ∧ h'.nextQuestion = h.nextQuestion)
    (hidentity : job'.identity = job.identity) (stage stage' : Stage WriteOutcome)
    (hstage : ∀ g : Holder, g.running = some ⟨job, jobStage⟩ → g.runningEntries = [entry job stage])
    (hstage' : ∀ g : Holder, g.running = some ⟨job', jobStage'⟩ →
      g.runningEntries = [entry job' stage']) :
    Moved h h' job stage stage' := by
  obtain ⟨hwaiting, hrunning', hended, hterm, hfinished, hnext⟩ := hsame
  have hafter := entries_of_running (hstage' h' hrunning')
  rw [hwaiting, hended] at hafter
  exact .of_entries hs ⟨hterm, hfinished, hnext⟩ hidentity
    (entries_of_running (hstage h hrunning)) hafter

theorem Moved.of_ended (hs : h.Sound tab) {jobStage : JobStage}
    (hrunning : h.running = some ⟨job, jobStage⟩) {running' : Option RunningJob}
    {connection : Option ConnectionId} {stage : Stage WriteOutcome}
    (hstage : ∀ g : Holder, g.running = some ⟨job, jobStage⟩ → g.runningEntries = [entry job stage])
    (hstage' : ({ h with running := running' } : Holder).runningEntries = []) :
    Moved h { h with
    running := running'
    ended := h.ended ++ [⟨job, outcome⟩]
    connection } job stage (.ended outcome) := by
  refine .of_entries hs ?_ rfl (entries_of_running (hstage h hrunning))
    (entries_endJob h job outcome hstage')
  exact ⟨rfl, rfl, rfl⟩

/-! ### what happens to a job, as steps of a write -/

section

open Entrusting.State (Steps)

variable {v : Entrusting.State ClientId TermId Payload WriteOutcome}

/-- What leaves a port's share in the write as it was. -/
theorem steps_same (hdesk : v.desks tab = some (h.desk key)) (hsame : h'.desk key = h.desk key) :
    Steps writeRules v (v.serve tab (h'.desk key) [] [] []) := by
  rw [hsame, Entrusting.State.serve_nil, Entrusting.State.setDesk_self hdesk]

/-- Where a change of one job is a step of its write, it leads to what the port has of any write
afterwards. -/
theorem Moved.steps {stage stage' : Stage WriteOutcome} (hmoved : Moved h h' job stage stage')
    (hdesk : v.desks tab = some (h.desk key))
    (begun : List TermId) (parts : List (Entrusting.Part TermId))
    (hstep : job.key = key → (h.desk key).job = some ⟨job.payload, stage⟩ →
      Steps writeRules v (v.serve tab ((h.desk key).withStage job.payload stage') [] begun parts)) :
    Steps writeRules v
    (v.serve tab (h'.desk key) [] (if job.key = key then begun else [])
      (if job.key = key then parts else [])) := by
  obtain ⟨hkey, hjob, heq⟩ | ⟨hkey, heq⟩ := hmoved.desk key
  · rw [if_pos hkey, if_pos hkey, heq]
    exact hstep hkey hjob
  · rw [if_neg hkey, if_neg hkey]
    exact steps_same hdesk heq

/-- A change of one job that begins nothing and does no part of it. -/
theorem Moved.steps_idle {stage stage' : Stage WriteOutcome} (hmoved : Moved h h' job stage stage')
    (hdesk : v.desks tab = some (h.desk key))
    (hstep : (h.desk key).job = some ⟨job.payload, stage⟩ →
      Entrusting.State.Step writeRules v
      (v.setDesk tab ((h.desk key).withStage job.payload stage'))) :
    Steps writeRules v (v.serve tab (h'.desk key) [] [] []) := by
  have hsteps := hmoved.steps hdesk [] [] fun _ hjob => by
    rw [Entrusting.State.serve_nil]
    exact .single (hstep hjob)
  rw [ite_self, ite_self] at hsteps
  exact hsteps

theorem endsFirst_steps (hs : h.Sound tab) (hdesk : v.desks tab = some (h.desk key))
    (hwaiting : h.waiting = job :: rest)
    (hrunning : h.running = none) (hunbegun : outcome.isUnbegun = true) :
    Steps writeRules v
    (v.serve tab ((({ h with waiting := rest } : Holder).endJob job outcome).desk key)
    [] [] []) := by
  have hmoved : Moved h (({ h with waiting := rest } : Holder).endJob job outcome) job .waiting
      (.ended outcome) := by
    refine .of_entries hs ?_ rfl (List.Perm.of_eq (entries_of_first hwaiting hrunning))
      (entries_endJob { h with waiting := rest } job outcome rfl)
    exact ⟨rfl, rfl, rfl⟩
  exact hmoved.steps_idle hdesk fun hjob =>
    .turnsBack tab _ hdesk job.payload .waiting hjob (Or.inl rfl) outcome hunbegun

theorem expiresQueued_steps (hs : h.Sound tab) (hdesk : v.desks tab = some (h.desk key))
    (hjob : job ∈ h.waiting)
    (hunbegun : outcome.isUnbegun = true) : Steps writeRules v (v.serve tab (({ h with
      waiting := KeyedList.erase Job.id job.id h.waiting
      ended := h.ended ++ [⟨job, outcome⟩] } : Holder).desk key) [] [] []) := by
  have hsub : (h.waiting.map Job.id).Sublist (h.unanswered.map Job.id) := by
    rw [unanswered_eq, List.append_assoc]
    exact (List.sublist_append_left _ _).map _
  have hperm : (job :: KeyedList.erase Job.id job.id h.waiting).Perm h.waiting :=
    perm_cons_filter (hsub.nodup hs.jobs.ids) hjob
  have hmoved : Moved h { h with
    waiting := KeyedList.erase Job.id job.id h.waiting
    ended := h.ended ++ [⟨job, outcome⟩] } job .waiting
      (.ended outcome) := by
    have hbefore : h.entries.Perm (entry job .waiting ::
        ((KeyedList.erase Job.id job.id h.waiting).map (entry · .waiting) ++ h.runningEntries ++
        h.ended.map fun ended => entry ended.job (.ended ended.outcome))) := by
      rw [entries, ← List.cons_append, ← List.cons_append]
      refine List.Perm.append_right _ (List.Perm.append_right _ ?_)
      exact (hperm.map (entry · .waiting)).symm
    refine .of_entries hs ?_ rfl hbefore ?_
    · exact ⟨rfl, rfl, rfl⟩
    · show ((KeyedList.erase Job.id job.id h.waiting).map (entry · .waiting) ++ h.runningEntries ++
        (h.ended ++ [(⟨job, outcome⟩ : EndedJob)]).map fun ended : EndedJob =>
          entry ended.job (.ended ended.outcome)).Perm _
      rw [List.map_append, ← List.append_assoc]
      exact List.perm_append_comm
  exact hmoved.steps_idle hdesk fun hjob =>
    .turnsBack tab _ hdesk job.payload .waiting hjob (Or.inl rfl) outcome hunbegun

/-- The question of the running job is over, without a yes. -/
theorem givesUpAsking_steps (hs : h.Sound tab) (hdesk : v.desks tab = some (h.desk key))
    {question : QuestionId}
    (hrunning : h.running = some ⟨job, .asking question⟩) (stage : HolderStage)
    (connection : Option ConnectionId) :
    Steps writeRules v (v.serve tab (({ h with
    stage
    connection
    running := some ⟨job, .answered false⟩ } : Holder).desk key) [] [] []) := by
  have hmoved := Moved.of_running hs hrunning
      { h with stage, connection, running := some ⟨job, .answered false⟩ }
    ⟨rfl, rfl, rfl, rfl, rfl, rfl⟩ rfl (.asking question) (.answered false)
      (fun g hg => by simp [runningEntries, hg]) fun g hg => by simp [runningEntries, hg]
  exact hmoved.steps_idle hdesk fun hjob => .takesAnswer tab _ hdesk job.payload question hjob false
    fun heq => by cases heq

theorem takesAnswer_steps (hs : h.Sound tab) (hdesk : v.desks tab = some (h.desk key))
    {question : QuestionId}
    (hrunning : h.running = some ⟨job, .asking question⟩) {isApproved : Bool}
    (hletter : job.key = key → isApproved = true → .answer h.term question true ∈ v.letters tab)
    {awaited : List AwaitedApproval} :
    Steps writeRules v (v.serve tab (({ h with
    awaited
    running := some ⟨job, .answered isApproved⟩ } : Holder).desk key) [] [] []) := by
  have hmoved := Moved.of_running hs hrunning
      { h with awaited, running := some ⟨job, .answered isApproved⟩ }
    ⟨rfl, rfl, rfl, rfl, rfl, rfl⟩ rfl (.asking question) (.answered isApproved)
      (fun g hg => by simp [runningEntries, hg]) fun g hg => by simp [runningEntries, hg]
  have hsteps := hmoved.steps hdesk [] [] fun hkey hjob => by
    rw [Entrusting.State.serve_nil]
    exact .single (.takesAnswer tab _ hdesk job.payload question hjob isApproved (hletter hkey))
  rw [ite_self, ite_self] at hsteps
  exact hsteps

theorem turnsBack_steps (hs : h.Sound tab) (hdesk : v.desks tab = some (h.desk key))
    {isApproved : Bool}
    (hrunning : h.running = some ⟨job, .answered isApproved⟩)
    (hunbegun : outcome.isUnbegun = true) :
    Steps writeRules v (v.serve tab ((h.endJob job outcome).desk key) [] [] []) := by
  have hmoved : Moved h (h.endJob job outcome) job (.answered isApproved) (.ended outcome) :=
    .of_ended hs hrunning (fun g hg => by simp [runningEntries, hg]) rfl
  exact hmoved.steps_idle hdesk fun hjob =>
    .turnsBack tab _ hdesk job.payload (.answered isApproved) hjob (Or.inr ⟨isApproved, rfl⟩)
      outcome hunbegun

theorem fails_steps (hs : h.Sound tab) (hdesk : v.desks tab = some (h.desk key)) {c : ConnectionId}
    {offset : Nat}
    (hrunning : h.running = some ⟨job, .writing c offset⟩) (hbegun : outcome.isUnbegun = false)
    (hfailed : outcome ≠ none)
    {running' : Option RunningJob} (hrunning' : ∀ r, running' = some r → ∃ c, r = ⟨job, .stalled c⟩)
    {connection : Option ConnectionId} :
    Steps writeRules v (v.serve tab (({ h with
    running := running'
    ended := h.ended ++ [⟨job, outcome⟩]
    connection } : Holder).desk key)
      [] [] []) := by
  have hnone : ({ h with running := running' } : Holder).runningEntries = [] := by
    cases running' with
    | none => rfl
    | some r =>
      obtain ⟨c, rfl⟩ := hrunning' r rfl
      rfl
  have hmoved : Moved h { h with
    running := running'
    ended := h.ended ++ [⟨job, outcome⟩]
    connection } job (.working offset)
      (.ended outcome) := .of_ended hs hrunning (fun g hg => by simp [runningEntries, hg]) hnone
  refine hmoved.steps_idle hdesk fun hjob =>
    .fails tab _ hdesk job.payload offset hjob outcome ?_ hfailed
  simpa [writeRules] using hbegun

theorem begins_steps (hs : h.Sound tab) (hdesk : v.desks tab = some (h.desk key))
    (hrunning : h.running = some ⟨job, .answered true⟩)
    (connection : ConnectionId) :
    Steps writeRules v (v.serve tab ((h.writeChunk job connection 0).desk key) []
      (if job.key = key then [h.term] else []) []) := by
  have hmoved := Moved.of_running hs hrunning (h.writeChunk job connection 0) ⟨rfl, rfl, rfl, rfl,
      rfl, rfl⟩ rfl
    (.answered true) (.working 0) (fun g hg => by simp [runningEntries, hg]) fun g hg =>
      by simp [runningEntries, hg]
  have hsteps := hmoved.steps hdesk [h.term] [] fun _ hjob => by
    have hterm : (h.desk key).term = h.term := rfl
    have hstep := Entrusting.State.Step.begins (R := writeRules) tab _ hdesk job.payload hjob
    simpa [Entrusting.State.serve, Entrusting.State.setDesk, hterm]
      using Relation.ReflTransGen.single hstep
  rw [ite_self] at hsteps
  exact hsteps

theorem takesChunk_steps (hs : h.Sound tab) (hdesk : v.desks tab = some (h.desk key))
    {c : ConnectionId} {offset bytes : Nat}
    (hrunning : h.running = some ⟨job, .writing c offset⟩)
    (hbytes : bytes ≤ job.payload.length - offset) :
    Steps writeRules v (v.serve tab ((h.chunkTaken job c offset bytes).desk key) [] []
      (if job.key = key then [⟨h.term, offset, bytes⟩] else [])) := by
  have hworks : ∀ {h' : Holder} {stage' : Stage WriteOutcome}, Moved h h' job
      (.working offset) stage' →
      (offset + bytes < job.payload.length ∧ (stage' = .working (offset + bytes) ∨
        ∃ outcome, stage' = .ended outcome ∧ ¬ writeRules.unbegun outcome ∧
          outcome ≠ writeRules.success) ∨
          job.payload.length ≤ offset + bytes ∧ stage' = .ended writeRules.success) →
      Steps writeRules v (v.serve tab (h'.desk key) [] []
        (if job.key = key then [⟨h.term, offset, bytes⟩] else [])) := by
    intro h' stage' hmoved hstage
    have hsteps := hmoved.steps hdesk [] [⟨h.term, offset, bytes⟩] fun _ hjob => by
      have hterm : (h.desk key).term = h.term := rfl
      have hstep := Entrusting.State.Step.works (R := writeRules) tab _ hdesk job.payload offset
        bytes hjob hbytes stage' hstage
      simpa [Entrusting.State.serve, Entrusting.State.setDesk, hterm]
        using Relation.ReflTransGen.single hstep
    rw [ite_self] at hsteps
    exact hsteps
  have hentries : ∀ g : Holder, g.running = some ⟨job, .writing c offset⟩ →
      g.runningEntries = [entry job (.working offset)] := fun g hg => by
    simp [runningEntries, hg]
  obtain ⟨hmore, -, heq⟩ | ⟨hmore, -, heq⟩ | ⟨hall, heq⟩ :=
    chunkTaken_cases (h := h) job c offset bytes
  · rw [heq]
    refine hworks (Moved.of_ended hs hrunning hentries rfl)
      (Or.inl ⟨hmore, Or.inr ⟨_, rfl, ?_, ?_⟩⟩)
    · simp [writeRules, WriteOutcome.isUnbegun]
    · simp [writeRules]
  · rw [heq]
    exact hworks (Moved.of_running hs hrunning (h.writeChunk job c (offset + bytes)) ⟨rfl, rfl, rfl,
        rfl, rfl, rfl⟩ rfl (.working offset)
      (.working (offset + bytes)) hentries fun g hg =>
        by simp [runningEntries, hg]) (Or.inl ⟨hmore, Or.inl rfl⟩)
  · rw [heq]
    exact hworks (Moved.of_ended hs hrunning hentries rfl) (Or.inr ⟨hall, rfl⟩)

/-- The first job of the queue is begun, as one of the port's own tab. -/
theorem moved_beginFirst (hs : h.Sound tab) (hwaiting : h.waiting = job :: rest)
    (hrunning : h.running = none) (connection : ConnectionId) :
    Moved h (({ h with waiting := rest } : Holder).writeChunk job connection 0) job .waiting
    (.working 0) := by
  obtain ⟨h', hh'⟩ : ∃ h' : Holder, h' =
      ({ h with waiting := rest } : Holder).writeChunk job connection 0 := ⟨_, rfl⟩
  have hidentity : ({ job with deadline := h.nextDeadline } : Job).identity = job.identity := rfl
  have hafter : h'.entries.Perm (entry { job with deadline := h.nextDeadline } (.working 0) ::
      (rest.map (entry · .waiting) ++ h.ended.map fun ended =>
        entry ended.job (.ended ended.outcome))) := by
    rw [hh']
    exact entries_of_running rfl
  rw [← hh']
  exact .of_entries hs (hh' ▸ ⟨rfl, rfl, rfl⟩) hidentity
    (List.Perm.of_eq (entries_of_first hwaiting hrunning)) hafter

/-- The first job of the queue is asked about. -/
theorem asks_steps (hs : h.Sound tab) (hdesk : v.desks tab = some (h.desk key))
    (hwaiting : h.waiting = job :: rest)
    (hrunning : h.running = none) (awaited : List AwaitedApproval) :
    Steps writeRules v (v.serve tab (({ h with
      waiting := rest
      running := some ⟨job, .asking h.nextQuestion⟩
      awaited
      nextQuestion := h.nextQuestion + 1 } : Holder).desk key)
        (if job.key = key then [.question h.term h.nextQuestion] else []) [] []) := by
  obtain ⟨h', hh'⟩ : ∃ h' : Holder, h' = { h with
      waiting := rest
      running := some ⟨job, .asking h.nextQuestion⟩
      awaited
      nextQuestion := h.nextQuestion + 1 } := ⟨_, rfl⟩
  rw [← hh']
  have hnext : h'.nextQuestion = h.nextQuestion + 1 := by rw [hh']
  have hafter : h'.entries.Perm (entry job (.asking h.nextQuestion) ::
      (rest.map (entry · .waiting) ++ h.ended.map fun ended =>
        entry ended.job (.ended ended.outcome))) := by
    rw [hh']
    exact entries_of_running rfl
  obtain ⟨hkey, hjob, heq⟩ | ⟨hkey, heq⟩ :=
    desk_moved hs h' (by rw [hh']) (by rw [hh']) rfl
      (List.Perm.of_eq (entries_of_first hwaiting hrunning)) hafter key
  · rw [if_pos hkey, heq, hnext]
    have hterm : (h.desk key).term = h.term ∧ (h.desk key).nextQuestion = h.nextQuestion :=
      ⟨rfl, rfl⟩
    have hstep := Entrusting.State.Step.asks (R := writeRules) tab _ hdesk job.payload hjob
    simpa [hterm, Entrusting.State.serve, Entrusting.State.setDesk]
      using Relation.ReflTransGen.single hstep
  · rw [if_neg hkey, heq, hnext, Entrusting.State.serve_nil]
    exact .single (.numbers tab _ hdesk (h.nextQuestion + 1) (Nat.le_succ _))

/-- A new request becomes a job. -/
theorem admits_steps (hs : h.Sound tab) (hserving : h.stage = .serving)
    (hdesk : v.desks tab = some (h.desk key)) {key' : WriteKey}
    {accepted : AcceptedWrites} (hnew : h.accepted.admitWrite key' = (accepted, .new))
    (htask : key' = key → v.task = some payload ∨ .offer payload ∈ v.letters tab) :
    Steps writeRules v
    (v.serve tab ((({ h with accepted } : Holder).enqueue key' payload).desk key) [] [] []) := by
  have hs' : (({ h with accepted } : Holder).enqueue key' payload).Sound tab :=
    hs.enqueue hserving hnew
  have hperm : (({ h with accepted } : Holder).enqueue key' payload).entries.Perm
      (⟨key', payload, .waiting⟩ :: h.entries) := by
    show ((h.waiting ++ [_]).map (entry · .waiting) ++ h.runningEntries ++ h.ended.map _).Perm _
    rw [List.map_append, List.append_assoc, List.append_assoc, entries, List.append_assoc]
    exact List.perm_middle
  obtain ⟨hfresh, hunknown, hfinished⟩ : key' ∉ h.accepted.inProgress ∧
      KeyedList.lookup FinishedWrite.key key' h.accepted.finished = none ∧
        accepted.finished = h.accepted.finished := by
    unfold AcceptedWrites.admitWrite at hnew
    split at hnew
    · cases hnew
    next hnot =>
    split at hnew
    · cases hnew
    next hnone => exact ⟨hnot, hnone, by rw [← (Prod.mk.inj hnew).1]⟩
  have hjob : ((({ h with accepted } : Holder).enqueue key' payload).desk key).job =
      if key' = key then some ⟨payload, .waiting⟩ else (h.desk key).job := by
    rw [desk, hs'.distinct.lookup_perm hperm, KeyedList.lookup_cons]
    by_cases hkey : key' = key
    · rw [if_pos hkey, if_pos hkey]
      rfl
    · rw [if_neg hkey, if_neg hkey]
      rfl
  have hrecorded : ((({ h with accepted } : Holder).enqueue key' payload).desk key).recorded
      = (h.desk key).recorded := by
    show (KeyedList.lookup FinishedWrite.key key accepted.finished).map _ = _
    rw [hfinished]
    rfl
  have hsame : (({ h with accepted } : Holder).enqueue key' payload).desk key =
      ⟨h.term, if key' = key then some ⟨payload, .waiting⟩ else (h.desk key).job,
        (h.desk key).recorded, h.nextQuestion⟩ := by
    rw [← hjob, ← hrecorded]
    rfl
  rw [hsame, Entrusting.State.serve_nil]
  by_cases hkey : key' = key
  · subst hkey
    rw [if_pos rfl]
    refine .single (.admits tab _ hdesk (hs.job_desk_eq_none.mpr hfresh) ?_ payload (htask rfl))
    rw [desk, hunknown]
    rfl
  · rw [if_neg hkey]
    exact (Entrusting.State.setDesk_self hdesk).symm ▸ .refl

/-- The outcomes a port remembers after one more: the last is there, and an earlier one is as it was
or forgotten. -/
theorem lookup_finish {accepted : AcceptedWrites}
    (hdistinct : KeyedList.Distinct FinishedWrite.key accepted.finished) {key' : WriteKey}
    (hnone : KeyedList.lookup FinishedWrite.key key' accepted.finished = none)
    (outcome : WriteOutcome) :
    (outcome.isNotConnected = true ∧ (accepted.finish key' outcome).finished = accepted.finished) ∨
      outcome.isNotConnected = false ∧
      KeyedList.lookup FinishedWrite.key key'
      (accepted.finish key' outcome).finished = some ⟨key', outcome⟩ ∧
      ∀ key ≠ key', KeyedList.lookup FinishedWrite.key key (accepted.finish key' outcome).finished =
        KeyedList.lookup FinishedWrite.key key accepted.finished ∨
          KeyedList.lookup FinishedWrite.key key
          (accepted.finish key' outcome).finished = none := by
  unfold AcceptedWrites.finish
  by_cases hback : outcome.isNotConnected = true
  · exact Or.inl ⟨hback, by rw [if_pos hback]⟩
  rw [if_neg hback]
  refine Or.inr ⟨by simpa using hback, ?_⟩
  have hput : KeyedList.put FinishedWrite.key ⟨key',
      outcome⟩ accepted.finished = accepted.finished ++ [⟨key', outcome⟩] :=
    KeyedList.put_of_lookup_none hnone
  have hwhole : KeyedList.Distinct FinishedWrite.key (accepted.finished ++ [⟨key', outcome⟩]) :=
    hput ▸ hdistinct.put_self
  dsimp only
  rw [hput]
  have hsub := forgetOldest_sublist (accepted.finished ++ [⟨key', outcome⟩])
  have hkept : KeyedList.Distinct FinishedWrite.key
      (AcceptedWrites.forgetOldest (accepted.finished ++ [⟨key', outcome⟩])) :=
    hwhole.sublist (hsub.map _)
  constructor
  · refine hkept.lookup (a := ⟨key', outcome⟩) ?_
    unfold AcceptedWrites.forgetOldest
    split
    · next hmany =>
      cases hfinished : accepted.finished with
      | nil =>
        rw [hfinished] at hmany
        simp [maxRememberedFinishedWrites] at hmany
      | cons first others => simp
    · simp
  · intro key hne
    cases hlookup : KeyedList.lookup FinishedWrite.key key
      (AcceptedWrites.forgetOldest (accepted.finished ++ [⟨key', outcome⟩])) with
    | none => exact Or.inr rfl
    | some write =>
      obtain ⟨hmem, hkey⟩ := hkept.lookup_iff.mp hlookup
      refine Or.inl (hdistinct.lookup_iff.mpr ⟨?_, hkey⟩).symm
      refine (List.mem_append.mp (hsub.subset hmem)).resolve_right fun hlast => hne ?_
      rw [← hkey, List.mem_singleton.mp hlast]

/-- The ended jobs without one of them. -/
theorem entries_of_ended (hs : h.Sound tab) {ended : EndedJob} (hended : ended ∈ h.ended) :
    h.entries.Perm
    (entry ended.job (.ended ended.outcome) ::
      (h.waiting.map (entry · .waiting) ++ h.runningEntries ++
      (h.ended.filter fun e => e.job.id ≠ ended.job.id).map fun ended =>
        entry ended.job (.ended ended.outcome))) := by
  have hids : KeyedList.Distinct (fun e : EndedJob => e.job.id) h.ended := by
    have hsub : ((h.ended.map EndedJob.job).map Job.id).Sublist (h.unanswered.map Job.id) := by
      rw [unanswered_eq]
      exact (List.sublist_append_right _ _).map _
    rw [List.map_map] at hsub
    exact hsub.nodup hs.jobs.ids
  have herased := (hids.perm_cons_erase hended).map fun ended : EndedJob =>
    entry ended.job (.ended ended.outcome)
  rw [entries]
  refine (List.Perm.append_left _ herased.symm).trans ?_
  rw [List.map_cons]
  exact List.perm_middle

theorem job_desk_of_ended (hs : h.Sound tab) {ended : EndedJob} (hended : ended ∈ h.ended) :
    (h.desk ended.job.key).job = some ⟨ended.job.payload, .ended ended.outcome⟩ := by
  rw [desk, hs.distinct.lookup_perm (entries_of_ended hs hended), KeyedList.lookup_cons,
    if_pos (show (entry ended.job _).key = ended.job.key from rfl)]
  rfl

/-- A job that has ended is answered: its outcome is remembered, unless the write goes back, and an
earlier one may be forgotten. -/
theorem leaves_steps (hs : h.Sound tab) (hdesk : v.desks tab = some (h.desk key)) {ended : EndedJob}
    (hended : ended ∈ h.ended)
    (hforgets : ended.job.key ≠ key →
      (KeyedList.lookup FinishedWrite.key key h.accepted.finished).isSome = true →
      KeyedList.lookup FinishedWrite.key key
      (h.accepted.finish ended.job.key ended.outcome).finished = none →
      v.pending = none ∧ v.task ≠ none) (awaited : List AwaitedApproval) :
    Steps writeRules v (v.serve tab (({ h with
      ended := h.ended.filter fun e => e.job.id ≠ ended.job.id
      accepted := h.accepted.finish ended.job.key ended.outcome
      awaited } : Holder).desk key) [] [] []) := by
  generalize hh' : ({ h with
      ended := h.ended.filter fun e => e.job.id ≠ ended.job.id
      accepted := h.accepted.finish ended.job.key ended.outcome
      awaited } : Holder) = h'
  have hperm : h.entries.Perm (entry ended.job (.ended ended.outcome) :: h'.entries) :=
    hh' ▸ entries_of_ended hs hended
  have hdistinct : KeyedList.Distinct WriteEntry.key (entry ended.job (.ended ended.outcome) ::
      h'.entries) :=
    (hperm.map _).nodup_iff.mp hs.distinct
  have hnone : KeyedList.lookup FinishedWrite.key ended.job.key h.accepted.finished = none :=
      hs.jobs.notFinished ended.job <| by
    rw [unanswered_eq]
    exact List.mem_append_right _ (List.mem_map_of_mem hended)
  have hrecorded : (h'.desk key).recorded = (KeyedList.lookup FinishedWrite.key key
    (h.accepted.finish ended.job.key ended.outcome).finished).map
      FinishedWrite.outcome := by rw [← hh', desk]
  have hterm : h'.term = h.term ∧ h'.nextQuestion = h.nextQuestion := hh' ▸ ⟨rfl, rfl⟩
  have hfinish := lookup_finish hs.jobs.finished hnone ended.outcome
  rw [Entrusting.State.serve_nil]
  by_cases hkey : ended.job.key = key
  · subst hkey
    have hjob := job_desk_of_ended hs hended
    have hgone : (h'.desk ended.job.key).job = none := by
      rw [desk, Option.map_eq_none_iff, KeyedList.lookup_eq_none]
      intro e he heq
      have hmem : e.key ∈ h'.entries.map WriteEntry.key := List.mem_map_of_mem he
      rw [heq] at hmem
      exact (List.nodup_cons.mp hdistinct).1 hmem
    have hsame : h'.desk ended.job.key = { h.desk ended.job.key with
        job := none
        recorded := (h'.desk ended.job.key).recorded } := by
      exact (desk_eq hterm _).trans (by rw [hgone]; rfl)
    rw [hsame]
    refine .single (.leaves tab _ hdesk ended.job.payload ended.outcome hjob _ ?_)
    rw [hrecorded]
    obtain ⟨hback, heq⟩ | ⟨hback, hlookup, -⟩ := hfinish
    · exact Or.inl ⟨hback, by rw [heq]; rfl⟩
    · exact Or.inr ⟨by simp [writeRules, hback], by rw [hlookup]; rfl⟩
  · have hjob : (h'.desk key).job = (h.desk key).job := by
      rw [desk, desk, hs.distinct.lookup_perm hperm, KeyedList.lookup_cons,
        if_neg (show (entry ended.job _).key ≠ key from hkey)]
    have hsame : h'.desk key = { h.desk key with recorded := (h'.desk key).recorded } := by
      exact (desk_eq hterm key).trans (by rw [hjob]; rfl)
    have hkept : (h'.desk key).recorded = (h.desk key).recorded →
        Steps writeRules v (v.setDesk tab (h'.desk key)) := fun heq => by
      rw [hsame, heq]
      exact (Entrusting.State.setDesk_self hdesk).symm ▸ .refl
    obtain ⟨-, heq⟩ | ⟨-, -, hother⟩ := hfinish
    · exact hkept (by rw [hrecorded, heq]; rfl)
    obtain heq | hforgotten := hother key fun heq => hkey heq.symm
    · exact hkept (by rw [hrecorded, heq]; rfl)
    cases hbefore : KeyedList.lookup FinishedWrite.key key h.accepted.finished with
    | none => exact hkept (by rw [hrecorded, hforgotten, desk, hbefore])
    | some write =>
      obtain ⟨hpending, htask⟩ := hforgets hkey (by rw [hbefore]; rfl) hforgotten
      rw [hsame, hrecorded, hforgotten]
      exact .single (.forgets hpending htask tab _ hdesk)

/-- An outcome is reported. -/
theorem posts_steps (hdesk : v.desks tab = some (h.desk key))
    (hwhy : (∃ task, (h.desk key).job = some ⟨task, .ended outcome⟩) ∨
    (h.desk key).job = none ∧
      ((h.desk key).recorded = some outcome ∨ (h.desk key).recorded = none ∧
      writeRules.unbegun outcome)) :
    Steps writeRules v (v.serve tab (h.desk key) [.result h.term outcome] [] []) := by
  have hposts := Entrusting.State.Step.posts (R := writeRules) tab _ hdesk outcome hwhy
  have hterm : (h.desk key).term = h.term := rfl
  simpa [Entrusting.State.serve, Entrusting.State.setDesk_self hdesk, hterm]
    using Relation.ReflTransGen.single hposts

end

end Holder

end SerialBroker
