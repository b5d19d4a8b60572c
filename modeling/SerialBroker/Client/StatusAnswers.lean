import SerialBroker.Core.RateLimit

/-!
# Answers to status requests

What `ConfigurationSession` does with a `status-request` it applies, within `STATUS_ANSWER_RATE`: an
answer at once, or one that is scheduled for all who asked beyond the rate. Beside it stand the
other places that touch the scheduled answer or decide whether it is sent: the locks being acquired
and let go, `release`, and the withdrawal of a tab that does not hold the lock.

A tab holds the port while it is in a term. It may hold the ownership lock without being in one: a
released tab has given its port up and is only waiting for the port to close, or was released while
the locks were being granted. The requests are numbered as they are applied, and the record keeps
which of them wait for an answer.
-/

namespace SerialBroker

/-- `STATUS_ANSWER_RATE`. -/
def statusAnswerRate : RateLimit := ⟨32, 32, by norm_num, by norm_num⟩

structure StatusAnswers where
  /-- What the monotonic clock reads. -/
  now : ℚ
  isOwner : Bool
  /-- Whether `#term` is set. -/
  isInTerm : Bool
  isReleased : Bool
  isWithdrawn : Bool
  statusAnswers : RateLimiter
  /-- When the timer of the scheduled answer is due. -/
  delayedStatusAnswer : Option ℚ
  /-- How many requests were applied. -/
  applied : ℕ
  waiting : List ℕ
  answered : List ℕ

inductive StatusAnswersEvent
  | elapse (ms : ℚ)
  /-- A `status-request` is applied. -/
  | statusRequest
  /-- The timer of the scheduled answer fires. -/
  | answerTimer
  /-- Both locks are granted. -/
  | acquired
  /-- Both locks have been let go, or were lost. -/
  | lost
  | release
  /-- `release` goes on once the election has stopped. -/
  | electionStopped
  | withdraw

namespace StatusAnswers

def init (start : ℚ) : StatusAnswers :=
  ⟨start, false, false, false, false, .new statusAnswerRate start, none, 0, [], []⟩

/-- Outside a term there is no status of a port to state. -/
def broadcastStatus (s : StatusAnswers) : StatusAnswers :=
  if s.isInTerm then { s with waiting := [], answered := s.answered ++ s.waiting } else s

def answerStatusRequest (s : StatusAnswers) : StatusAnswers :=
  if s.isOwner then
    let taken := s.statusAnswers.take statusAnswerRate s.now
    if taken.2 then { s with statusAnswers := taken.1 }.broadcastStatus
    else if s.delayedStatusAnswer.isSome then { s with statusAnswers := taken.1 }
    else
      let delay := taken.1.delayUntilAllowed statusAnswerRate s.now
      { s with statusAnswers := delay.1, delayedStatusAnswer := some (s.now + delay.2) }
  else s

/-- The record with one more request, which waits if the tab holds the port. -/
def withRequest (s : StatusAnswers) : StatusAnswers :=
  { s with
    applied := s.applied + 1
    waiting := if s.isInTerm then s.waiting ++ [s.applied] else s.waiting }

/-- `#apply` of a `status-request`. -/
def applyStatusRequest (s : StatusAnswers) : StatusAnswers := s.withRequest.answerStatusRequest

/-- What the timer runs. -/
def sendDelayedAnswer (s : StatusAnswers) : StatusAnswers :=
  if s.isReleased ∨ ¬ s.isOwner then { s with delayedStatusAnswer := none }
  else { s with
    delayedStatusAnswer := none
    statusAnswers := (s.statusAnswers.take statusAnswerRate s.now).1 }.broadcastStatus

def stopTimers (s : StatusAnswers) : StatusAnswers := { s with delayedStatusAnswer := none }

/-- The term is over: nobody waits for this tab any more. -/
def stopBeingOwner (s : StatusAnswers) : StatusAnswers :=
  { s with isInTerm := false, waiting := [] }

def step (s : StatusAnswers) : StatusAnswersEvent → Option StatusAnswers
  | .elapse ms => if 0 ≤ ms then some { s with now := s.now + ms } else none
  | .statusRequest => some s.applyStatusRequest
  | .answerTimer => if s.delayedStatusAnswer.any (· ≤ s.now) then some s.sendDelayedAnswer else none
  | .acquired =>
    if s.isOwner ∨ s.isWithdrawn then none else some
      { s with isOwner := true, isInTerm := !s.isReleased }
  | .lost => if s.isOwner then some { s with isOwner := false }.stopBeingOwner else none
  | .release => if s.isReleased then some s else some { s with isReleased := true }.stopBeingOwner
  | .electionStopped => if s.isReleased ∧ ¬ s.isOwner then some s.stopTimers else none
  | .withdraw =>
    if s.isReleased ∨ s.isWithdrawn ∨ s.isOwner then none else some
      { s with isWithdrawn := true }.stopTimers

end StatusAnswers

/-- A session made at `start`. -/
def statusAnswers (start : ℚ) : TransitionSystem StatusAnswers StatusAnswersEvent :=
  ⟨.init start, StatusAnswers.step⟩

namespace StatusAnswers

/-- A request applied while the tab holds the port is answered at once, or by an answer that is
scheduled and is sent unless the tab stops holding the port first. -/
structure AnswersEveryRequest (s : StatusAnswers) : Prop where
  applied : ∀ s', s.step .statusRequest = some s' → s.isInTerm → s.applied ∈ s'.answered ∨
    s.applied ∈ s'.waiting
  scheduled : s.waiting ≠ [] → s.isInTerm ∧ ∃ due, s.delayedStatusAnswer = some due ∧
    due ≤ s.now + 32
  sent : ∀ s', s.step .answerTimer = some s' →
    s'.answered = s.answered ++ s.waiting ∧ s'.waiting = []
  kept : ∀ e s', s.step e = some s' → ∀ n ∈ s.waiting, n ∈ s'.waiting ∨ n ∈ s'.answered ∨
    ¬ s'.isInTerm

/-! ### what holds throughout -/

structure Sound (s : StatusAnswers) : Prop where
  owner : s.isInTerm → s.isOwner ∧ ¬ s.isReleased
  inTerm : s.waiting ≠ [] → s.isInTerm
  scheduled : s.waiting ≠ [] → s.delayedStatusAnswer.isSome
  due : ∀ due ∈ s.delayedStatusAnswer, due ≤ s.now + 32
  limiter : 0 ≤ s.statusAnswers.tokens

variable {s s' : StatusAnswers} {start : ℚ}

theorem sound_init : (init start).Sound where
  owner h := absurd h Bool.false_ne_true
  inTerm h := absurd rfl h
  scheduled h := absurd rfl h
  due _ h := absurd h (Option.not_mem_none _)
  limiter := zero_le_one.trans statusAnswerRate.one_le_burst

theorem delay_le {r : RateLimiter} (h : 0 ≤ r.tokens) (now : ℚ) :
    (r.delayUntilAllowed statusAnswerRate now).2 ≤ 32 := by
  have htokens := RateLimiter.refill_nonneg statusAnswerRate now h
  unfold RateLimiter.delayUntilAllowed
  simp only []
  split
  · norm_num
  · refine Int.ceil_le.mpr ?_
    simp only [statusAnswerRate] at htokens ⊢
    push_cast
    linarith

/-- Nobody waits, so the timer may stand or not. -/
theorem Sound.nobodyWaits (hs : s.Sound) (hnobody : s.waiting = []) : s.stopTimers.Sound where
  owner := hs.owner
  inTerm := hs.inTerm
  scheduled h := absurd hnobody h
  due _ h := absurd h (Option.not_mem_none _)
  limiter := hs.limiter

theorem Sound.waiting_eq_nil (hs : s.Sound) (h : s.isReleased ∨ ¬ s.isOwner) : s.waiting = [] := by
  by_contra hne
  obtain ⟨howner, hreleased⟩ := hs.owner (hs.inTerm hne)
  obtain h | h := h
  · exact hreleased h
  · exact h howner

theorem Sound.stopBeingOwner {isOwner isReleased : Bool} (hs : s.Sound) :
    { s with isOwner, isReleased }.stopBeingOwner.Sound where
  owner h := absurd h Bool.false_ne_true
  inTerm h := absurd rfl h
  scheduled h := absurd rfl h
  due := hs.due
  limiter := hs.limiter

/-! ### a request is applied -/

theorem broadcastStatus_answers (hinTerm : s.isInTerm) : s.broadcastStatus =
    { s with waiting := [], answered := s.answered ++ s.waiting } :=
  if_pos hinTerm

/-- After a request the session has answered, or has an answer scheduled. -/
theorem answerStatusRequest_cases (howner : s.isOwner) :
    (∃ r, s.answerStatusRequest =
      { s with statusAnswers := r }.broadcastStatus ∧ (0 ≤ s.statusAnswers.tokens → 0 ≤ r.tokens)) ∨
      (∃ r due, s.answerStatusRequest =
        { s with statusAnswers := r, delayedStatusAnswer := some due } ∧
        (0 ≤ s.statusAnswers.tokens → 0 ≤ r.tokens) ∧
        (s.delayedStatusAnswer = some due ∨ (0 ≤ s.statusAnswers.tokens → due ≤ s.now + 32))) := by
  have htake := fun h => RateLimiter.take_nonneg (r := s.statusAnswers) statusAnswerRate s.now h
  unfold answerStatusRequest
  rw [if_pos howner]
  simp only []
  split
  · exact Or.inl ⟨_, rfl, htake⟩
  · refine Or.inr ?_
    cases hdelayed : s.delayedStatusAnswer with
    | some due =>
      exact ⟨_, due, if_pos rfl, htake, Or.inl rfl⟩
    | none =>
      refine ⟨_, _, if_neg Bool.false_ne_true, fun h => ?_, Or.inr fun h => ?_⟩
      · rw [RateLimiter.delayUntilAllowed_fst]
        exact RateLimiter.refill_nonneg _ _ (htake h)
      · have hdelay := delay_le (htake h) s.now
        have hcast : ((((s.statusAnswers.take statusAnswerRate s.now).1.delayUntilAllowed
            statusAnswerRate s.now).2 : ℤ) : ℚ) ≤ 32 := by
          exact_mod_cast hdelay
        linarith

theorem answerStatusRequest_of_not_owner (howner : ¬ s.isOwner) : s.answerStatusRequest = s :=
  if_neg howner

theorem Sound.withRequest_inTerm (hs : s.Sound) (h : s.withRequest.waiting ≠ []) : s.isInTerm := by
  by_contra hout
  exact hout (hs.inTerm (by simpa [withRequest, hout] using h))

theorem Sound.applyStatusRequest (hs : s.Sound) : s.applyStatusRequest.Sound := by
  unfold StatusAnswers.applyStatusRequest
  by_cases howner : s.isOwner
  · obtain ⟨r, hafter, hr⟩ | ⟨r, due, hafter, hr, hdue⟩ :=
      answerStatusRequest_cases (s := s.withRequest) howner
    · rw [hafter]
      unfold StatusAnswers.broadcastStatus
      split
      · exact ⟨hs.owner, fun h => absurd rfl h, fun h => absurd rfl h, hs.due, hr hs.limiter⟩
      · next hout =>
          exact ⟨hs.owner, hs.withRequest_inTerm, fun h => absurd (hs.withRequest_inTerm h) hout,
            hs.due, hr hs.limiter⟩
    · rw [hafter]
      refine ⟨hs.owner, hs.withRequest_inTerm, fun _ => rfl, fun due' hdue' => ?_, hr hs.limiter⟩
      obtain rfl := Option.some.inj hdue'
      obtain hdue | hdue := hdue
      · exact hs.due due hdue
      · exact hdue hs.limiter
  · rw [answerStatusRequest_of_not_owner (s := s.withRequest) howner]
    have hout : ∀ h : s.withRequest.waiting ≠ [], False :=
      fun h => howner (hs.owner (hs.withRequest_inTerm h)).1
    exact ⟨hs.owner, hs.withRequest_inTerm, fun h => (hout h).elim, hs.due, hs.limiter⟩

theorem Sound.sendDelayedAnswer (hs : s.Sound) : s.sendDelayedAnswer.Sound := by
  unfold StatusAnswers.sendDelayedAnswer
  split
  · next h => exact hs.nobodyWaits (hs.waiting_eq_nil h)
  · unfold StatusAnswers.broadcastStatus
    have hlimiter := RateLimiter.take_nonneg statusAnswerRate s.now hs.limiter
    split
    · exact ⟨hs.owner, fun h => absurd rfl h, fun h => absurd rfl h,
        fun _ h => absurd h (Option.not_mem_none _), hlimiter⟩
    · next hout =>
      exact ⟨hs.owner, hs.inTerm, fun h => absurd (hs.inTerm h) hout,
        fun _ h => absurd h (Option.not_mem_none _), hlimiter⟩

theorem Sound.step (hs : s.Sound) {e : StatusAnswersEvent} (hstep : s.step e = some s') :
    s'.Sound := by
  cases e with
  | elapse ms =>
    obtain ⟨hms, hstep⟩ := Option.ite_none_right_eq_some.mp hstep
    obtain rfl := Option.some.inj hstep
    exact { hs with due := fun due hdue => (hs.due due hdue).trans (by simp only []; linarith) }
  | statusRequest =>
    obtain rfl := Option.some.inj hstep
    exact hs.applyStatusRequest
  | answerTimer =>
    obtain ⟨_, hstep⟩ := Option.ite_none_right_eq_some.mp hstep
    obtain rfl := Option.some.inj hstep
    exact hs.sendDelayedAnswer
  | acquired =>
    obtain ⟨hguard, hstep⟩ := Option.ite_none_left_eq_some.mp hstep
    obtain rfl := Option.some.inj hstep
    have howner : ¬ s.isOwner := fun h => hguard (Or.inl h)
    have hnobody := hs.waiting_eq_nil (Or.inr howner)
    exact ⟨fun h => ⟨rfl, by simpa using h⟩, fun h => absurd hnobody h,
      fun h => absurd hnobody h, hs.due, hs.limiter⟩
  | lost =>
    obtain ⟨_, hstep⟩ := Option.ite_none_right_eq_some.mp hstep
    obtain rfl := Option.some.inj hstep
    exact hs.stopBeingOwner
  | release =>
    by_cases hreleased : s.isReleased
    · rw [StatusAnswers.step, if_pos hreleased] at hstep
      obtain rfl := Option.some.inj hstep
      exact hs
    · rw [StatusAnswers.step, if_neg hreleased] at hstep
      obtain rfl := Option.some.inj hstep
      exact hs.stopBeingOwner
  | electionStopped =>
    obtain ⟨hguard, hstep⟩ := Option.ite_none_right_eq_some.mp hstep
    obtain rfl := Option.some.inj hstep
    exact hs.nobodyWaits (hs.waiting_eq_nil (Or.inl hguard.1))
  | withdraw =>
    obtain ⟨hguard, hstep⟩ := Option.ite_none_left_eq_some.mp hstep
    obtain rfl := Option.some.inj hstep
    have hnobody := hs.waiting_eq_nil (Or.inr fun h => hguard (Or.inr (Or.inr h)))
    exact Sound.nobodyWaits (s := { s with isWithdrawn := true }) { hs with } hnobody

/-! ### every request is answered -/

theorem Sound.answered_of_sent (hs : s.Sound) (hstep : s.step .answerTimer = some s') :
    s'.answered = s.answered ++ s.waiting ∧ s'.waiting = [] := by
  obtain ⟨_, hstep⟩ := Option.ite_none_right_eq_some.mp hstep
  obtain rfl := Option.some.inj hstep
  unfold StatusAnswers.sendDelayedAnswer
  split
  · next h =>
    have hnobody := hs.waiting_eq_nil h
    simp only [hnobody, List.append_nil, and_self]
  · unfold StatusAnswers.broadcastStatus
    split
    · exact ⟨rfl, rfl⟩
    · next hout =>
      have hnobody : s.waiting = [] := not_not.mp fun h => hout (hs.inTerm h)
      simp only [hnobody, List.append_nil, and_self]

/-- Whoever waits, or just asked, is answered or goes on waiting. -/
theorem Sound.kept_of_request (hs : s.Sound) {n : ℕ} (hn : n ∈ s.withRequest.waiting) :
    n ∈ s.applyStatusRequest.waiting ∨ n ∈ s.applyStatusRequest.answered := by
  unfold StatusAnswers.applyStatusRequest
  have hinTerm := hs.withRequest_inTerm (List.ne_nil_of_mem hn)
  obtain ⟨r, hafter, _⟩ | ⟨r, due, hafter, _⟩ :=
    answerStatusRequest_cases (s := s.withRequest) (hs.owner hinTerm).1
  · rw [hafter, broadcastStatus_answers (s := { s.withRequest with statusAnswers := r }) hinTerm]
    exact Or.inr (List.mem_append_right _ hn)
  · rw [hafter]
    exact Or.inl hn

theorem Sound.answersEveryRequest (hs : s.Sound) : s.AnswersEveryRequest where
  applied s' hstep hinTerm := by
    obtain rfl := Option.some.inj hstep
    exact (hs.kept_of_request (by simp [withRequest, hinTerm])).symm
  scheduled hwaiting := by
    obtain ⟨due, hdue⟩ := Option.isSome_iff_exists.mp (hs.scheduled hwaiting)
    exact ⟨hs.inTerm hwaiting, due, hdue, hs.due due hdue⟩
  sent _ hstep := hs.answered_of_sent hstep
  kept e s' hstep n hn := by
    cases e with
    | elapse ms =>
      obtain ⟨_, hstep⟩ := Option.ite_none_right_eq_some.mp hstep
      exact Or.inl (Option.some.inj hstep ▸ hn)
    | statusRequest =>
      obtain rfl := Option.some.inj hstep
      have hwith : n ∈ s.withRequest.waiting := by
        unfold withRequest
        split
        · exact List.mem_append_left _ hn
        · exact hn
      exact (hs.kept_of_request hwith).imp_right Or.inl
    | answerTimer =>
      rw [(hs.answered_of_sent hstep).1]
      exact Or.inr (Or.inl (List.mem_append_right _ hn))
    | acquired =>
      obtain ⟨_, hstep⟩ := Option.ite_none_left_eq_some.mp hstep
      exact Or.inl (Option.some.inj hstep ▸ hn)
    | lost =>
      obtain ⟨_, hstep⟩ := Option.ite_none_right_eq_some.mp hstep
      obtain rfl := Option.some.inj hstep
      exact Or.inr (Or.inr Bool.false_ne_true)
    | release =>
      by_cases hreleased : s.isReleased
      · rw [StatusAnswers.step, if_pos hreleased] at hstep
        exact Or.inl (Option.some.inj hstep ▸ hn)
      · rw [StatusAnswers.step, if_neg hreleased] at hstep
        obtain rfl := Option.some.inj hstep
        exact Or.inr (Or.inr Bool.false_ne_true)
    | electionStopped =>
      obtain ⟨_, hstep⟩ := Option.ite_none_right_eq_some.mp hstep
      exact Or.inl (Option.some.inj hstep ▸ hn)
    | withdraw =>
      obtain ⟨_, hstep⟩ := Option.ite_none_left_eq_some.mp hstep
      exact Or.inl (Option.some.inj hstep ▸ hn)

end StatusAnswers

/-- **The rate limiter bounds every window and starves nobody**, and no tab that asked a tab holding
the port for its status goes without an answer. -/
theorem rate_limit_starves_nobody :
    (∀ limit start calls s, (limiterRuns limit start).run calls = some s →
      WithinRate limit s.taken ∧ s.StarvesNobody limit start) ∧
      ∀ start events s, (statusAnswers start).run events = some s → s.AnswersEveryRequest := by
  refine ⟨fun limit start calls s hrun => ⟨(LimiterRun.sound_of_run hrun).withinRate,
    s.starvesNobody⟩, fun start events s hrun => ?_⟩
  have hsound : s.Sound :=
      TransitionSystem.run_invariant_all (T := statusAnswers start) StatusAnswers.sound_init
    (fun _ _ _ hs hstep => hs.step hstep) hrun
  exact hsound.answersEveryRequest

/-- One at once, and one each second. -/
def oneEachSecond : RateLimit := ⟨1, 1, by norm_num, by norm_num⟩

/-- Forty requests at once, and the timer of the answers beyond the burst. -/
def fortyRequests : List StatusAnswersEvent :=
  .acquired :: List.replicate 40 .statusRequest ++ [.elapse 32, .answerTimer]

theorem rate_limit_starves_nobody_fortyRequests :
    (∃ s, (limiterRuns oneEachSecond 0).run [.take 0, .take (1 / 2), .delayUntilAllowed (1 / 2),
      .take 1001] = some s ∧ s.taken = [0, 1001] ∧
      WithinRate oneEachSecond s.taken) ∧
      ∃ s, (statusAnswers 0).run fortyRequests = some s ∧ s.answered = List.range 40 ∧
        s.AnswersEveryRequest := by
  obtain ⟨s, hrun, htaken⟩ := (Option.any_eq_true _ _).mp
    (show ((limiterRuns oneEachSecond 0).run [.take 0, .take (1 / 2), .delayUntilAllowed (1 / 2),
        .take 1001]).any
      (fun s => decide (s.taken = [0, 1001])) = true by decide +kernel)
  obtain ⟨t, hruns, hanswered⟩ := (Option.any_eq_true _ _).mp
    (show ((statusAnswers 0).run fortyRequests).any (fun s =>
      decide (s.answered = List.range 40)) = true by decide +kernel)
  exact ⟨⟨s, hrun, of_decide_eq_true htaken, (rate_limit_starves_nobody.1 _ _ _ s hrun).1⟩,
    t, hruns, of_decide_eq_true hanswered, rate_limit_starves_nobody.2 _ _ t hruns⟩

end SerialBroker
