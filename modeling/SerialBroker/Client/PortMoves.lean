import SerialBroker.Client.TabMoves

/-!
# What a move does at the port a tab holds

A tab's port keeps its term, its jobs stay sound, and nothing is said or done in its term but by the
tab that holds it and before it has said goodbye. A write that is unanswered stays so until its
answer is sent.
-/

namespace SerialBroker

namespace Holder

variable {h : Holder} {tab : ClientId} {job : Job} {key : WriteKey}

/-- A question about another write is over. -/
theorem Sound.awaitedErased (hs : h.Sound tab)
    (hnot : ∀ job question, h.running = some ⟨job, .asking question⟩ → job.key ≠ key) :
    ({ h with awaited := KeyedList.erase AwaitedApproval.key key h.awaited } : Holder).Sound tab :=
  { hs with
    asking := fun job question hrunning => by
      obtain ⟨horigin, hquestion, hlookup⟩ := hs.asking job question hrunning
      exact ⟨horigin, hquestion,
        by rw [KeyedList.lookup_erase, if_neg (hnot job question hrunning), hlookup]⟩
    questions := ⟨(List.filter_sublist.map _).nodup hs.questions.1, fun a ha =>
      hs.questions.2 a (KeyedList.mem_erase.mp ha).1⟩ }

theorem runningJobs_subset : ∀ job ∈ h.runningJobs, job ∈ h.unanswered := fun job hjob => by
  rw [unanswered_eq]
  exact List.mem_append_left _ (List.mem_append_right _ hjob)

theorem mem_unanswered_of_running {running : RunningJob} (hrunning : h.running = some running)
    (hstage : ∀ c, running.stage ≠ .stalled c) :
    running.job ∈ h.unanswered := by
  refine runningJobs_subset running.job ?_
  rw [runningJobs_of_running hrunning hstage]
  exact List.mem_cons_self

theorem Sound.ne_stopped (hs : h.Sound tab) (hjob : job ∈ h.unanswered) : h.stage ≠ .stopped :=
  fun hstage => by
  rw [hs.stopped hstage] at hjob
  cases hjob

/-- A job that is asked about is in progress. -/
theorem Sound.inProgress_of_asking (hs : h.Sound tab) {question : QuestionId}
    (hrunning : h.running = some ⟨job, .asking question⟩) :
    job.key ∈ h.accepted.inProgress :=
  (hs.jobs.inProgress _).mpr
    ⟨job, mem_unanswered_of_running hrunning (fun _ heq => by cases heq), rfl⟩

theorem Sound.mem_unanswered_iff (hs : h.Sound tab) :
    key ∈ h.unanswered.map Job.key ↔ key ∈ h.accepted.inProgress := by
  rw [hs.jobs.inProgress, List.mem_map]

theorem finish_inProgress {accepted : AcceptedWrites} {outcome : WriteOutcome} :
    (accepted.finish key outcome).inProgress = accepted.inProgress.filter (· ≠ key) := by
  unfold AcceptedWrites.finish
  split <;> rfl

theorem admitted_inProgress {accepted accepted' : AcceptedWrites}
    (hnew : accepted.admitWrite key = (accepted', .new)) :
    accepted'.inProgress = accepted.inProgress ++ [key] ∧ accepted'.finished = accepted.finished ∧
      key ∉ accepted.inProgress ∧
      KeyedList.lookup FinishedWrite.key key accepted.finished = none := by
  unfold AcceptedWrites.admitWrite at hnew
  split at hnew
  · cases hnew
  next hnot =>
  split at hnew
  · cases hnew
  next hnone =>
  obtain rfl := (Prod.mk.inj hnew).1
  exact ⟨rfl, rfl, hnot, hnone⟩

/-- What the end of a chunk comes to. -/
theorem chunkTaken_cases (job : Job) (connection : ConnectionId) (offset bytes : Nat) :
    (offset + bytes < job.payload.length ∧ h.isTornDown = true ∧
      h.chunkTaken job connection offset bytes = h.endJob job
      (some ⟨.WRITE_FAILED, none, some (offset + bytes)⟩)) ∨
    (offset + bytes < job.payload.length ∧ h.isTornDown = false ∧
      h.chunkTaken job connection offset bytes = h.writeChunk job connection (offset + bytes)) ∨
    (job.payload.length ≤ offset + bytes ∧
      h.chunkTaken job connection offset bytes = h.endJob job none) := by
  unfold chunkTaken
  dsimp only
  by_cases hmore : offset + bytes < job.payload.length
  · rw [if_pos hmore]
    cases htorn : h.isTornDown
    · exact Or.inr (Or.inl ⟨hmore, rfl, if_neg (by simp)⟩)
    · exact Or.inl ⟨hmore, rfl, if_pos rfl⟩
  · rw [if_neg hmore]
    exact Or.inr (Or.inr ⟨Nat.le_of_not_lt hmore, rfl⟩)

end Holder

namespace Tab

variable {t t' t₀ : Tab} {config : TabConfig} {discipline : Discipline} {requestId : RequestId}
  {term : TermId} {h h' : Holder} {key : WriteKey}
  {outcome : WriteOutcome} {payload : Payload} {message : ProtocolMessage} {job : Job}

/-- What the answer to a question comes to: the one that is waited for answers the running job. -/
theorem takeApproval_cases {tab : ClientId} (hs : ∀ h, t.holder = some h → h.Sound tab)
    (key : WriteKey) (term : TermId) (approved : Bool) :
    t.takeApproval key term approved = t ∨ ∃ h, t.serving? = some h ∧ h.term = term ∧
      ((∃ job question, h.running = some ⟨job, .asking question⟩ ∧ job.key = key ∧
        t.takeApproval key term approved = t.setHolder { h with
          awaited := KeyedList.erase AwaitedApproval.key key h.awaited
          running := some ⟨job, .answered approved⟩ }) ∨
      (∀ job question, h.running = some ⟨job, .asking question⟩ → job.key ≠ key) ∧
        t.takeApproval key term approved = t.setHolder
          { h with awaited := KeyedList.erase AwaitedApproval.key key h.awaited }) := by
  unfold takeApproval
  split
  · exact Or.inl rfl
  next h hserving =>
  split
  · exact Or.inl rfl
  next hterm =>
  split
  · exact Or.inl rfl
  next awaited hlookup =>
  have hsound : h.Sound tab := hs h (holder_of_serving hserving).1
  refine Or.inr ⟨h, hserving, not_not.mp hterm, ?_⟩
  cases hrunning : h.running with
  | none => exact Or.inr ⟨(fun _ _ heq => by cases heq), rfl⟩
  | some running =>
  obtain ⟨job, stage⟩ := running
  cases stage with
  | answered | writing | stalled => exact Or.inr ⟨(fun _ _ heq => by cases heq), rfl⟩
  | asking question =>
  obtain ⟨-, -, hasked⟩ := hsound.asking job question hrunning
  have hkey : awaited.key = key := KeyedList.key_of_lookup hlookup
  by_cases hquestion : question = awaited.question
  · have hsame : (⟨job.key, question⟩ : AwaitedApproval) = awaited :=
      hsound.questions.1.eq_of_mem (KeyedList.mem_of_lookup hasked)
        (KeyedList.mem_of_lookup hlookup) hquestion
    have hjob : job.key = key := by rw [← hkey, ← hsame]
    refine Or.inl ⟨job, question, rfl, hjob, ?_⟩
    dsimp only
    rw [if_pos hquestion]
  · refine Or.inr ⟨fun job' question' heq hjob => hquestion ?_, ?_⟩
    · obtain ⟨rfl, hstage⟩ := RunningJob.mk.inj (Option.some.inj heq)
      rw [hjob, hlookup] at hasked
      rw [Option.some.inj hasked]
    · dsimp only
      rw [if_neg hquestion]

theorem settle_same (t : Tab) (requestId : RequestId) (outcome : WriteOutcome) :
    (t.settle requestId outcome).holder = t.holder ∧
      (t.settle requestId outcome).election = t.election := by
  unfold settle
  split <;> exact ⟨rfl, rfl⟩

theorem approve_same (t : Tab) (requestId : RequestId) (term : TermId) :
    (t.approve requestId term).1.holder = t.holder ∧
      (t.approve requestId term).1.election = t.election := by
  unfold approve
  split
  · exact ⟨rfl, rfl⟩
  · split <;> exact ⟨rfl, rfl⟩

theorem startElection_holder (t : Tab) : t.startElection.holder = t.holder := by
  unfold startElection
  split
  · rfl
  · split <;> rfl

/-- What is done first by a tab that has done nothing yet is all it has done. -/
theorem mem_outbox_act {action : Action} (houtbox : t₀.outbox = [])
    (hact : t'.outbox = t₀.outbox ++ [action]) :
    ∀ deed ∈ t'.outbox, deed = action := fun deed hdeed => by
  rw [hact, houtbox] at hdeed
  exact List.mem_singleton.mp hdeed

/-- What a tab sends as the answer to a write of another one. -/
def answerOf (tab : ClientId) (term : TermId) (key : WriteKey) (outcome : WriteOutcome) : Action :=
  .send ⟨tab, .client key.origin, .writeResult key.requestId outcome.isNone outcome (some term)⟩

/-- What a tab sends when its term is over. -/
def releaseOf (tab : ClientId) (term : TermId) : Action := .send ⟨tab, .all, .ownerReleased term⟩

/-- What a move does at the port. -/
structure AtPort (config : TabConfig) (t t' : Tab) : Prop where
  term : t'.holder.map Holder.term = t.holder.map Holder.term
  sound : ∀ h', t'.holder = some h' → h'.Sound config.clientId
  stage : ∀ h h', t.holder = some h → t'.holder = some h' →
    (h'.stage = .stopped ↔ h.stage = .stopped ∨ releaseOf config.clientId h.term ∈ t'.outbox)
  serves : ∀ deed ∈ t'.outbox, ∀ term, deed.servedTerm? = some term →
    ∃ h, t.holder = some h ∧ h.term = term ∧ h.stage ≠ .stopped
  claims : ∀ deed ∈ t'.outbox, ∀ message term maxTabs, deed = .send message →
    message.body ≠ .ownerClaimed term maxTabs
  released : ∀ h, t.holder = some h →
    ∀ before message after, t'.outbox = before ++ .send message :: after →
    message.body = .ownerReleased h.term →
    h.unanswered = [] ∧ message = ⟨config.clientId, .all, .ownerReleased h.term⟩ ∧
      ∀ deed ∈ before ++ after, deed.servedTerm? = none
  keeps : ∀ h h', t.holder = some h → t'.holder = some h' → ∀ key ∈ h.unanswered.map Job.key,
    key ∈ h'.unanswered.map Job.key ∨
    (key.origin ≠ config.clientId →
    ∃ outcome, answerOf config.clientId h.term key outcome ∈ t'.outbox)
  begins : ∀ key term, .began key term ∈ t'.outbox →
    ∃ h', t'.holder = some h' ∧ key ∈ h'.unanswered.map Job.key

namespace AtPort

/-- What leaves the port alone and says nothing in its term. -/
theorem of_same (hs : ∀ h, t.holder = some h → h.Sound config.clientId)
    (hholder : t'.holder = t.holder)
    (hdeeds : ∀ deed ∈ t'.outbox, deed.servedTerm? = none) : AtPort config t t' := by
  have hnot : ∀ deed term, deed ∈ t'.outbox → deed.servedTerm? = some term → False :=
      fun deed term hdeed hterm => by
    rw [hdeeds deed hdeed] at hterm
    cases hterm
  refine ⟨by rw [hholder], fun h' hh' => hs h' (hholder ▸ hh'), fun h h' hh hh' => ?_,
    fun deed hdeed term hterm => ?_,
    fun deed hdeed message term maxTabs heq hbody => ?_,
    fun h hh before message after heq hbody => ?_, fun h h' hh hh' key hkey => ?_,
    fun key term hdeed => ?_⟩
  · rw [hholder, hh] at hh'
    obtain rfl := Option.some.inj hh'
    exact ⟨Or.inl, fun hor => hor.resolve_right fun hdeed => hnot _ _ hdeed rfl⟩
  · exact (hnot deed term hdeed hterm).elim
  · subst heq
    exact hnot _ term hdeed (by rw [Action.servedTerm?, hbody]; rfl)
  · refine (hnot (.send message) h.term (heq ▸ List.mem_append_right _ List.mem_cons_self) ?_).elim
    rw [Action.servedTerm?, hbody]
    rfl
  · rw [hholder, hh] at hh'
    obtain rfl := Option.some.inj hh'
    exact Or.inl hkey
  · exact (hnot _ term hdeed rfl).elim

/-- What changes the port of a term that goes on. -/
theorem of_set (hs : ∀ h, t.holder = some h → h.Sound config.clientId) (hholder : t.holder = some h)
    (hholder' : t'.holder = some h')
    (hterm : h'.term = h.term) (hsound : h'.Sound config.clientId)
    (hstage : h'.stage = .stopped ↔ h.stage = .stopped)
    (hserves : ∀ deed ∈ t'.outbox, ∀ term, deed.servedTerm? = some term →
      h.term = term ∧ h.stage ≠ .stopped)
    (hquiet : ∀ message, .send message ∈ t'.outbox → message.body.isOfWrite = true)
    (hkeeps : ∀ key ∈ h.accepted.inProgress, key ∈ h'.accepted.inProgress ∨
      (key.origin ≠ config.clientId →
        ∃ outcome, answerOf config.clientId h.term key outcome ∈ t'.outbox))
    (hbegins : ∀ key term, .began key term ∈ t'.outbox → key ∈ h'.accepted.inProgress) :
    AtPort config t t' := by
  have hsame : ∀ {g : Holder}, t.holder = some g → g = h :=
    fun hg => Option.some.inj (hg.symm.trans hholder)
  have hsame' : ∀ {g : Holder}, t'.holder = some g → g = h' :=
    fun hg => Option.some.inj (hg.symm.trans hholder')
  refine ⟨by rw [hholder, hholder', Option.map_some, Option.map_some, hterm],
    fun g' hg' => by rw [hsame' hg']; exact hsound,
    fun g g' hg hg' => ?_, fun deed hdeed term hserved => ?_,
    fun deed hdeed message term maxTabs heq hbody => ?_,
    fun g hg before message after heq hbody => ?_, fun g g' hg hg' key hkey => ?_,
    fun key term hdeed => ?_⟩
  · obtain rfl := hsame hg
    obtain rfl := hsame' hg'
    rw [hstage]
    exact ⟨Or.inl, fun hor => hor.resolve_right fun hdeed => by cases hquiet _ hdeed⟩
  · exact ⟨h, hholder, hserves deed hdeed term hserved⟩
  · subst heq
    have hwrite := hquiet message hdeed
    rw [hbody] at hwrite
    cases hwrite
  · have hwrite := hquiet message (heq ▸ List.mem_append_right _ List.mem_cons_self)
    rw [hbody] at hwrite
    cases hwrite
  · obtain rfl := hsame hg
    obtain rfl := hsame' hg'
    rw [hsound.mem_unanswered_iff]
    exact hkeeps key ((hs g hg).mem_unanswered_iff.mp hkey)
  · exact ⟨h', hholder', hsound.mem_unanswered_iff.mpr (hbegins key term hdeed)⟩

/-- What concerns neither the writes nor the election leaves the port alone, and may say something
in its term. -/
theorem of_rest (hs : ∀ h, t.holder = some h → h.Sound config.clientId) {deeds : List Action}
    (hrest : Rest config [] t t' deeds)
    (houtbox : t'.outbox = deeds) : AtPort config t t' := by
  have hquiet : ∀ deed ∈ t'.outbox, ∀ message, deed = .send message → message.body.isPlain = true :=
      fun deed hdeed message heq => by
    subst heq
    exact (hrest.plain _ (houtbox ▸ hdeed)).1
  refine ⟨by rw [hrest.holder], fun h' hh' => hs h' (hrest.holder ▸ hh'), fun h h' hh hh' => ?_,
    fun deed hdeed term hterm => ?_,
    fun deed hdeed message term maxTabs heq hbody => ?_,
    fun h hh before message after heq hbody => ?_, fun h h' hh hh' key hkey => ?_,
    fun key term hdeed => ?_⟩
  · rw [hrest.holder, hh] at hh'
    obtain rfl := Option.some.inj hh'
    exact ⟨Or.inl, fun hor => hor.resolve_right fun hdeed => by cases hquiet _ hdeed _ rfl⟩
  · obtain ⟨hplain, hserves⟩ := hrest.plain deed (houtbox ▸ hdeed)
    cases deed with
    | send message =>
      obtain ⟨h, hserving, rfl⟩ := (hserves message rfl).2.2 term hterm
      obtain ⟨hholder, hstage⟩ := holder_of_serving hserving
      exact ⟨h, hholder, rfl, by rw [hstage]; decide⟩
    | began | chunkTaken => cases hplain
    | requestOwnerLock | withdrawOwnerRequest | requestTermLock | requestGoodbye | check | watch
    | abortWatch | settled => cases hterm
  · have hplain := hquiet deed hdeed message heq
    rw [hbody] at hplain
    cases hplain
  · have hplain := hquiet _ (heq ▸ List.mem_append_right _ List.mem_cons_self) message rfl
    rw [hbody] at hplain
    cases hplain
  · rw [hrest.holder, hh] at hh'
    obtain rfl := Option.some.inj hh'
    exact Or.inl hkey
  · have hplain := (hrest.plain _ (houtbox ▸ hdeed)).1
    cases hplain

/-- A change of the port about which nothing is said. -/
theorem of_silent (hs : ∀ h, t.holder = some h → h.Sound config.clientId) (houtbox : t'.outbox = [])
    (hholder : t.holder = some h)
    (hholder' : t'.holder = some h') (hterm : h'.term = h.term) (hsound : h'.Sound config.clientId)
    (hstage : h'.stage = .stopped ↔ h.stage = .stopped)
    (hkeeps : ∀ key ∈ h.accepted.inProgress, key ∈ h'.accepted.inProgress) :
    AtPort config t t' := by
  have hnone : ∀ deed, deed ∉ t'.outbox := fun deed => by
    rw [houtbox]
    exact List.not_mem_nil
  exact of_set hs hholder hholder' hterm hsound hstage (fun deed hdeed => absurd hdeed (hnone deed))
      (fun _ hdeed => absurd hdeed (hnone _))
    (fun key hkey => Or.inl (hkeeps key hkey)) fun _ _ hdeed => absurd hdeed (hnone _)

/-- A write of the tab's own is answered, which says nothing outside but its outcome. -/
theorem of_own (hs : ∀ h, t.holder = some h → h.Sound config.clientId) (requestId : RequestId)
    (outcome : WriteOutcome)
    (hdeeds : ∀ deed ∈ t'.outbox, deed = .settled requestId outcome) (hholder : t.holder = some h)
    {ended : EndedJob} (hended : ended ∈ h.ended)
    (horigin : ended.job.key.origin = config.clientId)
    (hholder' : t'.holder = some { h with
      ended := h.ended.filter fun e => e.job.id ≠ ended.job.id
      accepted := h.accepted.finish ended.job.key ended.outcome }) : AtPort config t t' := by
  refine .of_set hs hholder hholder' rfl
      ((hs h hholder).answerJob hended (fun _ _ => rfl) (List.Sublist.refl _)) Iff.rfl
    (fun deed hmem term hserved => ?_) (fun m hmem => ?_) (fun key hkey => ?_)
      fun key term hmem => ?_
  · rw [hdeeds deed hmem] at hserved
    cases hserved
  · cases hdeeds _ hmem
  · by_cases heq : key = ended.job.key
    · exact Or.inr fun hforeign => absurd (heq ▸ horigin) hforeign
    · refine Or.inl ?_
      show key ∈ (h.accepted.finish ended.job.key ended.outcome).inProgress
      rw [Holder.finish_inProgress]
      exact List.mem_filter.mpr ⟨hkey, decide_eq_true heq⟩
  · cases hdeeds _ hmem

/-- A change of the port at which one thing about a write is done or said. -/
theorem of_deed {d : Action} (hs : ∀ h, t.holder = some h → h.Sound config.clientId)
    (hdeeds : ∀ other ∈ t'.outbox, other = d) (hholder : t.holder = some h)
    (hholder' : t'.holder = some h')
    (hterm : h'.term = h.term) (hsound : h'.Sound config.clientId) (hstage : h'.stage = h.stage)
    (hgoes : h.stage ≠ .stopped) (hserved : d.servedTerm? = some h.term)
    (hquiet : ∀ message, d = .send message → message.body.isOfWrite = true)
    (hkeeps : ∀ key ∈ h.accepted.inProgress, key ∈ h'.accepted.inProgress ∨
      (key.origin ≠ config.clientId →
        ∃ outcome, answerOf config.clientId h.term key outcome ∈ t'.outbox))
    (hbegins : ∀ key term, d = .began key term → key ∈ h'.accepted.inProgress) :
    AtPort config t t' := by
  refine of_set hs hholder hholder' hterm hsound (by rw [hstage]) (fun other hmem term hother => ?_)
    (fun message hmem => hquiet message (hdeeds _ hmem).symm) hkeeps
    fun key term hmem => hbegins key term (hdeeds _ hmem).symm
  rw [hdeeds other hmem, hserved] at hother
  exact ⟨Option.some.inj hother, hgoes⟩

/-- The tab says goodbye when nothing is unanswered any more, and says nothing of its term after
it. -/
theorem of_goodbye (hholder : t.holder = some h) (hholder' : t'.holder =
    some { h with stage := .stopped })
    {deeds : List Action} (hdeeds : ∀ deed ∈ deeds, deed = .withdrawOwnerRequest)
    (hbox : t'.outbox = .requestGoodbye h.term :: releaseOf config.clientId h.term :: deeds)
    (hgoes : h.stage ≠ .stopped) (hnone : h.unanswered = [])
    (hsound : ({ h with stage := .stopped } : Holder).Sound config.clientId) :
    AtPort config t t' := by
  have hsame : ∀ {g : Holder}, t.holder = some g → g = h :=
    fun hg => Option.some.inj (hg.symm.trans hholder)
  have hmem : ∀ deed ∈ t'.outbox,
      deed = .requestGoodbye h.term ∨ deed = releaseOf config.clientId h.term ∨
        deed = .withdrawOwnerRequest := by
    intro deed hdeed
    rw [hbox] at hdeed
    simp only [List.mem_cons] at hdeed
    exact hdeed.imp_right (Or.imp_right (hdeeds deed))
  refine ⟨by rw [hholder', hholder]; rfl, fun g hg => ?_, fun g g' hg hg' => ?_,
    fun deed hdeed term hserved => ⟨h, hholder, ?_⟩,
    fun deed hdeed message term maxTabs heq hbody => ?_,
    fun g hg before message after heq hbody => ?_, fun g g' hg hg' key hkey => ?_,
    fun key term hdeed => ?_⟩
  · exact Option.some.inj (hholder'.symm.trans hg) ▸ hsound
  · obtain rfl := hsame hg
    rw [← Option.some.inj (hholder'.symm.trans hg')]
    exact iff_of_true rfl (Or.inr (hbox ▸ List.mem_cons_of_mem _ List.mem_cons_self))
  · obtain rfl | rfl | rfl := hmem deed hdeed
    · cases hserved
    · exact ⟨Option.some.inj hserved, hgoes⟩
    · cases hserved
  · subst heq
    obtain heq | heq | heq := hmem _ hdeed
    · cases heq
    · rw [Action.send.inj heq] at hbody
      cases hbody
    · cases heq
  · obtain rfl := hsame hg
    refine ⟨hnone, ?_⟩
    rw [hbox] at heq
    obtain ⟨-, hrest⟩ | ⟨middle, rfl, hrest⟩ := List.cons_eq_append_iff.mp heq
    · cases (List.cons.inj hrest).1
    obtain ⟨rfl, hrest⟩ | ⟨middle', rfl, hrest⟩ := List.cons_eq_append_iff.mp hrest
    · obtain ⟨hfirst, rfl⟩ := List.cons.inj hrest
      refine ⟨(Action.send.inj hfirst).symm, fun deed hdeed => ?_⟩
      obtain hdeed | hdeed := List.mem_append.mp hdeed
      · rw [List.mem_singleton.mp hdeed]
        rfl
      · rw [hdeeds deed hdeed]
        rfl
    · have hin : .send message ∈ deeds :=
        (List.cons.inj hrest).2 ▸ List.mem_append_right _ List.mem_cons_self
      cases hdeeds _ hin
  · obtain rfl := hsame hg
    rw [hnone] at hkey
    cases hkey
  · obtain heq | heq | heq := hmem _ hdeed
    · cases heq
    · cases heq
    · cases heq

/-- A move says of the port before it no more than what is held. -/
theorem of_holder (h : AtPort config t₀ t') (hholder : t₀.holder = t.holder) :
    AtPort config t t' where
  term := hholder ▸ h.term
  sound := h.sound
  stage := hholder ▸ h.stage
  serves := hholder ▸ h.serves
  claims := h.claims
  released := hholder ▸ h.released
  keeps := hholder ▸ h.keeps
  begins := h.begins

/-! ### what one move does -/

section Moves

variable (hs : ∀ h, t.holder = some h → h.Sound config.clientId) (houtbox : t.outbox = [])
include hs houtbox

theorem settle (requestId : RequestId) (outcome : WriteOutcome) :
    AtPort config t (t.settle requestId outcome) := by
  refine .of_same hs (settle_same _ _ _).1 fun deed hdeed => ?_
  obtain hdeed | rfl := (settle_applying _ _ _).2 deed hdeed
  · rw [houtbox] at hdeed
    cases hdeed
  · rfl

theorem startElection : AtPort config t t.startElection := by
  refine .of_same hs (startElection_holder t) fun deed hdeed => ?_
  obtain hdeed | rfl := (startElection_applying t).2 deed hdeed
  · rw [houtbox] at hdeed
    cases hdeed
  · rfl

theorem stopElection : AtPort config t t.stopElection := by
  refine .of_same hs (stopElection_same t).2.2.2.2.1 fun deed hdeed => ?_
  obtain hdeed | rfl := (stopElection_applying t).2 deed hdeed
  · rw [houtbox] at hdeed
    cases hdeed
  · rfl

theorem enqueue (hserving : t.serving? = some h) {accepted : AcceptedWrites}
    (hnew : h.accepted.admitWrite key = (accepted, .new)) (payload : Payload) :
    AtPort config t (t.setHolder (({ h with accepted } : Holder).enqueue key payload)) := by
  obtain ⟨hholder, hstage⟩ := holder_of_serving hserving
  refine .of_silent hs houtbox hholder rfl rfl ((hs h hholder).enqueue hstage hnew) Iff.rfl
    fun other hother => ?_
  show other ∈ accepted.inProgress
  rw [(Holder.admitted_inProgress hnew).1]
  exact List.mem_append_left _ hother

/-- A write that is not in progress is answered as it arrives. -/
theorem finishedForPeer (hserving : t.serving? = some h) (hnot : key ∉ h.accepted.inProgress)
    (outcome : WriteOutcome) : AtPort config t (t.finishedForPeer config h key outcome) := by
  obtain ⟨hholder, hstage⟩ := holder_of_serving hserving
  refine .of_deed (d := answerOf config.clientId h.term key outcome) hs
      (mem_outbox_act houtbox rfl) hholder rfl
    rfl ((hs h hholder).awaitedErased fun job question hrunning hkey => ?_) rfl
      (by rw [hstage]; decide) rfl
    (fun message heq => ?_) (fun _ hkey => Or.inl hkey) fun _ _ heq => by cases heq
  · exact hnot (hkey ▸ (hs h hholder).inProgress_of_asking hrunning)
  · rw [← Action.send.inj heq]
    rfl

/-- A question is answered by the tab whose write it is. -/
theorem approve (requestId : RequestId) (term : TermId) (to' : ClientId) (question : QuestionId) :
    AtPort config t ((t.approve requestId term).1.send config (.client to')
      (.writeApproval requestId term (t.approve requestId term).2 question)) := by
  refine .of_same hs (approve_same t requestId term).1 fun deed hmem => ?_
  rw [mem_outbox_act ((approve_deeds t requestId term).1.trans houtbox) rfl deed hmem]
  rfl

theorem takeApproval (term : TermId) (approved : Bool) :
    AtPort config t (t.takeApproval key term approved) := by
  have hbox : (t.takeApproval key term approved).outbox = [] :=
    (takeApproval_deeds t _ _ _).1.trans houtbox
  obtain heq | ⟨h, hserving, hterm, ⟨job, question, hrunning, hkey, heq⟩ | ⟨hnot, heq⟩⟩ :=
    takeApproval_cases hs key term approved
  · rw [heq]
    refine .of_same hs rfl fun deed hdeed => ?_
    rw [houtbox] at hdeed
    cases hdeed
  · obtain ⟨hsome, hstage⟩ := holder_of_serving hserving
    refine .of_silent hs hbox hsome (congrArg Tab.holder heq) rfl ?_ Iff.rfl fun _ hkey => hkey
    exact (hs h hsome).goOnRunning ⟨job, .answered approved⟩ hrunning (fun _ heq => by cases heq)
      (fun _ heq => by cases heq) rfl (Or.inl rfl) (Nat.le_refl _) (fun _ heq => by cases heq)
        List.filter_sublist
  · obtain ⟨hsome, hstage⟩ := holder_of_serving hserving
    exact .of_silent hs hbox hsome (congrArg Tab.holder heq) rfl
        ((hs h hsome).awaitedErased hnot) Iff.rfl
      fun _ hkey => hkey

/-- The first job, which is another tab's, asks that tab whether it may begin. -/
theorem ask (hholder : t.holder = some h) {rest : List Job} (hwaiting : h.waiting = job :: rest)
    (hrunning : h.running = none) (horigin : job.key.origin ≠ config.clientId)
    (hserving : h.stage = .serving) :
    AtPort config t ((t.setHolder { h with
        waiting := rest
        running := some ⟨job, .asking h.nextQuestion⟩
        awaited := KeyedList.put AwaitedApproval.key ⟨job.key, h.nextQuestion⟩ h.awaited
        nextQuestion := h.nextQuestion + 1 }).send config (.client job.key.origin)
      (.writeReady job.key.requestId h.term h.nextQuestion)) := by
  have hfresh : ∀ a ∈ h.awaited, a.question ≠ h.nextQuestion := fun a ha =>
    Nat.ne_of_lt ((hs h hholder).questions.2 a ha)
  refine .of_deed hs (mem_outbox_act houtbox rfl) hholder rfl rfl ?_ rfl
      (by rw [hserving]; decide) rfl
    (fun message heq => ?_) (fun _ hkey => Or.inl hkey) fun _ _ heq => by cases heq
  · refine (hs h hholder).runFirst hwaiting hrunning ⟨job, .asking h.nextQuestion⟩ rfl
        (fun _ heq => by cases heq)
      (Or.inl rfl) (Nat.le_refl _) (fun question heq => ?_) ⟨(hs h hholder).questions.1.put hfresh,
        fun a ha => ?_⟩
    · obtain rfl := JobStage.asking.inj heq
      exact ⟨horigin, Nat.lt_succ_self _, by rw [KeyedList.lookup_put, if_pos rfl]⟩
    · obtain rfl | ha := KeyedList.mem_of_mem_put ha
      · exact Nat.lt_succ_self _
      · exact Nat.lt_succ_of_lt ((hs h hholder).questions.2 a ha)
  · rw [← Action.send.inj heq]
    rfl

omit houtbox in
/-- A write is begun, where `g` is the port without what made the job wait. -/
theorem beginWrite (hempty : t₀.outbox = []) (hholder : t.holder = some h)
    (hserving : h.stage = .serving)
    (hkey : job.key ∈ h.accepted.inProgress) {g : Holder}
    (hsame : g.term = h.term ∧ g.stage = h.stage ∧ g.accepted = h.accepted)
    {connection : ConnectionId}
    (hsound : (g.writeChunk job connection 0).Sound config.clientId) :
    AtPort config t (t₀.beginWrite g job connection) := by
  obtain ⟨hterm, hstage, haccepted⟩ := hsame
  refine .of_deed (d := .began job.key g.term) hs (mem_outbox_act hempty rfl) hholder rfl hterm
      hsound hstage
    (by rw [hserving]; decide) (congrArg some hterm) (fun _ heq => by cases heq)
      (fun other hother => Or.inl ?_)
    fun key term heq => ?_
  · show other ∈ g.accepted.inProgress
    rw [haccepted]
    exact hother
  · obtain ⟨rfl, rfl⟩ := Action.began.inj heq
    show job.key ∈ g.accepted.inProgress
    rw [haccepted]
    exact hkey

/-- What the port took of a chunk is done before what comes next of the write. -/
theorem chunkTaken (hholder : t.holder = some h) {connection : ConnectionId} {offset : Nat}
    (hrunning : h.running = some ⟨job, .writing connection offset⟩) (bytes : Nat) :
    AtPort config t ((t.act (.chunkTaken job.key h.term offset bytes)).setHolder
      (h.chunkTaken job connection offset bytes)) := by
  have hgoes : h.stage ≠ .stopped :=
    (hs h hholder).ne_stopped (Holder.mem_unanswered_of_running hrunning fun _ heq => by cases heq)
  have hset : ∀ h', h.chunkTaken job connection offset bytes = h' → h'.term = h.term →
      h'.stage = h.stage →
      h'.accepted = h.accepted → h'.Sound config.clientId → AtPort config t
        ((t.act (.chunkTaken job.key h.term offset bytes)).setHolder
          (h.chunkTaken job connection offset bytes)) :=
    fun h' heq hterm hstage haccepted hsound =>
      .of_deed (d := .chunkTaken job.key h.term offset bytes) hs
          (mem_outbox_act houtbox rfl) hholder
        (congrArg some heq) hterm hsound hstage hgoes rfl (fun _ heq => by cases heq)
        (fun key hkey => Or.inl (by rw [haccepted]; exact hkey)) fun _ _ heq => by cases heq
  have hends : ∀ outcome, (h.endJob job outcome).Sound config.clientId := fun outcome =>
    (hs h hholder).endRunning hrunning (fun _ heq => by cases heq)
      (fun _ heq => by cases heq) (Or.inl rfl)
  obtain ⟨-, -, heq⟩ | ⟨-, htorn, heq⟩ | ⟨-, heq⟩ :=
    Holder.chunkTaken_cases (h := h) job connection offset bytes
  · exact hset _ heq rfl rfl rfl (hends _)
  · refine hset _ heq rfl rfl rfl ?_
    exact (hs h hholder).goOnRunning ⟨{ job with
        deadline := h.nextDeadline }, .writing connection _⟩ hrunning
      (fun _ heq => by cases heq) (fun _ heq => by cases heq) rfl
        (Or.inr ⟨Nat.lt_succ_self _, htorn⟩)
      (Nat.le_succ _) (fun _ heq => by cases heq) (List.Sublist.refl _)
  · exact hset _ heq rfl rfl rfl (hends _)

/-- The write of another tab that has ended is answered, and in progress no more. -/
theorem answerPeer (hholder : t.holder = some h) {ended : EndedJob} (hended : ended ∈ h.ended) :
    AtPort config t (t.finishedForPeer config { h with
      ended := h.ended.filter fun e => e.job.id ≠ ended.job.id
      accepted := h.accepted.finish ended.job.key ended.outcome } ended.job.key ended.outcome) := by
  have hmem : ended.job ∈ h.unanswered := by
    rw [Holder.unanswered_eq]
    exact List.mem_append_right _ (List.mem_map_of_mem hended)
  refine .of_deed (d := answerOf config.clientId h.term ended.job.key ended.outcome) hs
    (mem_outbox_act houtbox rfl) hholder rfl rfl ?_ rfl ((hs h hholder).ne_stopped hmem) rfl
      (fun message heq => ?_)
    (fun key hkey => ?_) fun _ _ heq => by cases heq
  · exact (hs h hholder).answerJob hended
        (fun key hne => by rw [KeyedList.lookup_erase, if_neg hne])
      List.filter_sublist
  · rw [← Action.send.inj heq]
    rfl
  · by_cases heq : key = ended.job.key
    · subst heq
      exact Or.inr fun _ => ⟨ended.outcome, List.mem_append_right _ List.mem_cons_self⟩
    · refine Or.inl ?_
      show key ∈ (h.accepted.finish ended.job.key ended.outcome).inProgress
      rw [Holder.finish_inProgress]
      exact List.mem_filter.mpr ⟨hkey, decide_eq_true heq⟩

theorem sayGoodbye (hholder : t.holder = some h) {deadline : DeadlineId}
    (hstage : h.stage = .answering deadline)
    (hanswered : h.unanswered = [] ∨ h.hasRunOut deadline = true) :
    AtPort config t (((t.setHolder { h with stage := .stopped }).act (.requestGoodbye h.term)).send
      config .all
      (.ownerReleased h.term)).stopElection := by
  have hnone : h.unanswered = [] :=
    hanswered.elim id ((hs h hholder).unanswered_of_hasRunOut hstage)
  obtain ⟨deeds, hdeeds, hflush⟩ := stopElection_deeds (t.setHolder { h with stage := .stopped })
  refine of_goodbye hholder (stopElection_same _).2.2.2.2.1 hdeeds ?_ (by rw [hstage]; simp) hnone
    ((hs h hholder).stopped_of_unanswered (by rw [hstage]; simp) hnone)
  have hhere := congrArg Tab.outbox
    (hflush ((t.outbox ++ [.requestGoodbye h.term]) ++
      [.send ⟨config.clientId, .all, .ownerReleased h.term⟩]))
  refine hhere.trans ?_
  rw [houtbox]
  rfl

end Moves

end AtPort

theorem Hears.same (hears : t.Hears message t₀) :
    t₀.holder = t.holder ∧ t₀.outbox = t.outbox ∧ t₀.serving? = t.serving? := by
  obtain ⟨effects, stack, hstack, rfl⟩ := hears
  exact ⟨rfl, rfl, rfl⟩

theorem Hears.kept (hears : t.Hears message t₀) :
    t₀.holder = t.holder ∧ t₀.writes = t.writes ∧ t₀.issued = t.issued := by
  obtain ⟨effects, stack, hstack, rfl⟩ := hears
  exact ⟨rfl, rfl, rfl⟩

/-- **What a move does at the port.** -/
theorem Move.atPort (hm : Move config discipline t t') (houtbox : t.outbox = [])
    (hs : ∀ h, t.holder = some h → h.Sound config.clientId) : AtPort config t t' := by
  have hnothing : ∀ deed, deed ∉ t.outbox := fun deed => by
    rw [houtbox]
    exact List.not_mem_nil
  -- what is heard is applied by a tab that holds the same and has done as little
  have hheard : ∀ {message : ProtocolMessage} {t₀ : Tab}, t.Hears message t₀ →
      (∀ h, t₀.holder = some h → h.Sound config.clientId) ∧ t₀.outbox = [] := fun hears =>
    ⟨hears.same.1.symm ▸ hs, hears.same.2.1.trans houtbox⟩
  cases hm with
  | rest _ deeds hrest =>
    refine .of_rest hs hrest ?_
    rw [hrest.outbox, houtbox, List.nil_append]
  | requests => exact .startElection hs houtbox
  | stops => exact .stopElection hs houtbox
  | withdraws stack hstack =>
    exact AtPort.of_holder (AtPort.stopElection (t := { t with
      stack, terms := t.terms.dispose.1 }) hs houtbox) rfl
  | issues payload => exact .of_same hs rfl fun deed hdeed => absurd hdeed (hnothing deed)
  | settles w hw outcome => exact .settle hs houtbox w.requestId outcome
  | marks requestId f => exact .of_same hs rfl fun deed hdeed => absurd hdeed (hnothing deed)
  | asks w hw term =>
    refine .of_same hs rfl fun deed hdeed => ?_
    rw [mem_outbox_act houtbox rfl deed hdeed]
    rfl
  | admits w hw h hserving accepted hnew => exact .enqueue hs houtbox hserving hnew w.payload
  | recalls w hw hstarted h hserving outcome => exact .settle hs houtbox w.requestId outcome
  | hearsRequest message t₀ hears requestId payload h hbody hserving accepted hnew =>
    obtain ⟨hs₀, hempty⟩ := hheard hears
    exact (AtPort.enqueue hs₀ hempty (hears.same.2.2.trans hserving) hnew payload).of_holder
      hears.same.1
  | hearsAgain message t₀ hears requestId payload h hbody hserving outcome hwhy =>
    obtain ⟨hs₀, hempty⟩ := hheard hears
    have hnot : (⟨message.sender, requestId⟩ : WriteKey) ∉ h.accepted.inProgress := by
      obtain ⟨hunknown, -⟩ | ⟨hnot, -⟩ := hwhy
      · intro hin
        rw [AcceptedWrites.isKnown, decide_eq_true (Or.inl hin)] at hunknown
        cases hunknown
      · exact hnot
    exact (AtPort.finishedForPeer hs₀ hempty (hears.same.2.2.trans hserving) hnot outcome).of_holder
      hears.same.1
  | hearsReady message t₀ hears requestId term question hbody =>
    obtain ⟨hs₀, hempty⟩ := hheard hears
    exact (AtPort.approve hs₀ hempty requestId term message.sender question).of_holder hears.same.1
  | hearsApproval message t₀ hears requestId term approved question hbody =>
    obtain ⟨hs₀, hempty⟩ := hheard hears
    exact (AtPort.takeApproval hs₀ hempty term approved).of_holder hears.same.1
  | hearsUnconnected message t₀ hears w hw =>
    refine .of_same hs hears.same.1 fun deed hdeed => ?_
    rw [show (t₀.modifyWrite w.requestId handBack).outbox = [] from (hheard hears).2] at hdeed
    cases hdeed
  | hearsResult message t₀ hears w hw term hterm ok error hbody outcome =>
    obtain ⟨hs₀, hempty⟩ := hheard hears
    exact (AtPort.settle hs₀ hempty w.requestId outcome).of_holder hears.same.1
  | connects h hholder connection nextConnection hconnection =>
    exact .of_silent hs houtbox hholder rfl rfl ((hs h hholder).withConnection hconnection) Iff.rfl
      fun _ hkey => hkey
  | endsFirst h hholder job rest hwaiting hrunning outcome hunbegun =>
    exact .of_silent hs houtbox hholder rfl rfl ((hs h hholder).endFirst hwaiting hrunning) Iff.rfl
      fun _ hkey => hkey
  | beginsOwn h hholder job rest hwaiting hrunning horigin connection hconnection w hw hid hterm =>
    have hserving : h.stage = .serving := (hs h hholder).of_serving hconnection
    have hjob : job ∈ h.unanswered := by
      rw [Holder.unanswered_eq, hwaiting]
      exact List.mem_append_left _ (List.mem_append_left _ List.mem_cons_self)
    have hempty : (t.modifyWrite w.requestId fun w =>
        { w with startedTerm := w.startedTerm.or (some h.term) }).outbox = [] := houtbox
    refine .beginWrite (g := { h with waiting := rest }) hs hempty hholder hserving
        (((hs h hholder).jobs.inProgress _).mpr ⟨job, hjob, rfl⟩)
      ⟨rfl, rfl, rfl⟩ ?_
    exact (hs h hholder).runFirst hwaiting hrunning ⟨{ job with
        deadline := h.nextDeadline }, .writing connection 0⟩
      rfl (fun _ heq => by cases heq)
        (Or.inr ⟨Nat.lt_succ_self _, by rw [Holder.isTornDown, hserving]⟩)
      (Nat.le_succ _) (fun _ heq => by cases heq) (hs h hholder).questions
  | asksToBegin h hholder job rest hwaiting hrunning horigin connection hconnection =>
    exact .ask hs houtbox hholder hwaiting hrunning horigin ((hs h hholder).of_serving hconnection)
  | expiresAsked h hholder job question hrunning =>
    refine .of_silent hs houtbox hholder rfl rfl ?_ Iff.rfl fun _ hkey => hkey
    exact (hs h hholder).goOnRunning ⟨job, .answered false⟩ hrunning (fun _ heq => by cases heq)
      (fun _ heq => by cases heq) rfl (Or.inl rfl) (Nat.le_refl _) (fun _ heq => by cases heq)
        (List.Sublist.refl _)
  | begins h hholder job hrunning connection hconnection =>
    have hserving : h.stage = .serving := (hs h hholder).of_serving hconnection
    have hjob : job ∈ h.unanswered :=
      Holder.mem_unanswered_of_running hrunning fun _ heq => by cases heq
    refine .beginWrite hs houtbox hholder hserving
        (((hs h hholder).jobs.inProgress _).mpr ⟨job, hjob, rfl⟩)
      ⟨rfl, rfl, rfl⟩ ?_
    exact (hs h hholder).goOnRunning ⟨{ job with
        deadline := h.nextDeadline }, .writing connection 0⟩ hrunning
      (fun _ heq => by cases heq) (fun _ heq => by cases heq) rfl
      (Or.inr ⟨Nat.lt_succ_self _, by rw [Holder.isTornDown, hserving]⟩) (Nat.le_succ _)
        (fun _ heq => by cases heq)
      (List.Sublist.refl _)
  | turnsBack h hholder job isApproved hrunning outcome hunbegun =>
    refine .of_silent hs houtbox hholder rfl rfl ?_ Iff.rfl fun _ hkey => hkey
    exact (hs h hholder).endRunning hrunning (fun _ heq => by cases heq)
      (fun _ heq => by cases heq) (Or.inl rfl)
  | takesChunk h hholder job connection offset hrunning =>
    exact .chunkTaken hs houtbox hholder hrunning _
  | failsChunk h hholder job connection offset hrunning outcome hbegun hfailed running' hrunning' c
      hconnection =>
    refine .of_silent hs houtbox hholder rfl rfl ?_ Iff.rfl fun _ hkey => hkey
    refine (hs h hholder).endRunning hrunning (fun _ heq => by cases heq)
      (fun r heq => ?_) hconnection
    obtain ⟨c', rfl⟩ := hrunning' r heq
    exact ⟨c', rfl⟩
  | endsStall h hholder job connection hrunning c hconnection =>
    refine .of_silent hs houtbox hholder rfl rfl ?_ Iff.rfl fun _ hkey => hkey
    have hended := (hs h hholder).stallEnded hrunning
    refine { hended with connection := fun hstage => ?_ }
    obtain rfl | rfl := hconnection
    · exact hended.connection hstage
    · rfl
  | expiresQueued h hholder job hjob =>
    exact .of_silent hs houtbox hholder rfl rfl ((hs h hholder).jobExpired hjob) Iff.rfl
      fun _ hkey => hkey
  | answersPeer h hholder ended hended hforgets horigin =>
    exact .answerPeer hs houtbox hholder hended
  | answersOwn h hholder ended hended hforgets horigin _ ht' hother =>
    subst ht'
    exact .of_own hs 0 none (fun deed hdeed => absurd hdeed (hnothing deed)) hholder
      hended horigin rfl
  | handsBackOwn h hholder ended hended hforgets horigin w hw hid hterm houtcome =>
    exact .of_own hs 0 none (fun deed hdeed => absurd hdeed (hnothing deed)) hholder
      hended horigin rfl
  | settlesOwn h hholder ended hended hforgets horigin w hw hid hterm =>
    refine .of_own hs w.requestId ended.outcome (fun deed hdeed => ?_) hholder hended horigin
      (settle_same _ _ _).1
    exact ((settle_applying _ _ _).2 deed hdeed).resolve_left (hnothing deed)
  | givesUp h hserving =>
    obtain ⟨hholder, hstage⟩ := holder_of_serving hserving
    refine .of_silent hs houtbox hholder rfl rfl (hs h hholder).stop ⟨(fun heq => by cases heq),
        fun heq => ?_⟩
      fun _ hkey => hkey
    rw [hstage] at heq
    cases heq
  | tearsDown h hholder hstopping =>
    refine .of_silent hs houtbox hholder rfl rfl ((hs h hholder).tornDown hstopping)
      ⟨(fun heq => by cases heq), fun heq => ?_⟩ fun _ hkey => hkey
    rw [hstopping] at heq
    cases heq
  | saysGoodbye h hholder deadline hstage hanswered =>
    exact .sayGoodbye hs houtbox hholder hstage hanswered

end Tab

end SerialBroker
