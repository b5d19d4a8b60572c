import SerialBroker.Lib.KeyedList
import SerialBroker.Lib.TransitionSystem

/-!
# A held lock

`HeldLock` of `core/held-lock.ts`: a Web Lock requested, held on the promise of `hold` and let go,
and requested again after a pause when the request was refused or `hold` failed. `start()` and
`stop()` may be called at any moment, from `hold`, `onFailed` and `onEnded` too. A request may be
granted before its abort reaches the browser, and the callback runs some time after the grant;
nobody takes a lock that is held with `steal`.

The requests are numbered as they are made; a timer carries the number of the request whose failure
set it, and a call of `stop()` that of the request whose end it waits for. A request whose promise
has settled stays in the list until the reactions to it have run. They run before any timer does.
-/

namespace SerialBroker

/-- What the browser has made of a request. -/
inductive RequestedLock
  | queued
  | held
  | gone
  deriving DecidableEq

/-- What the promise of a request settles with. -/
inductive LockRequestResult
  | fulfilled
  | rejected (isAbortError : Bool)
  deriving DecidableEq

/-- The reactions to the end of a request: `then`, in which `onFailed` runs, and `finally`. -/
inductive LockReaction
  | waiting
  /-- `onFailed` runs. -/
  | reporting
  | reacted
  deriving DecidableEq

structure HeldRequest where
  number : ℕ
  isAborted : Bool
  lock : RequestedLock
  /-- Whether `hold` runs. -/
  isHolding : Bool
  result : Option LockRequestResult
  reaction : LockReaction
  deriving DecidableEq

structure HeldLock where
  isStopped : Bool
  /-- The request `#abort` belongs to. -/
  abort : Option ℕ
  retry : Option ℕ
  /-- The request whose end `#ended` is. -/
  ended : Option ℕ
  requests : List HeldRequest
  timers : List ℕ
  /-- The calls of `stop()` that wait. -/
  stopping : List (Option ℕ)
  /-- How many requests were made. -/
  made : ℕ
  /-- The requests whose grants `hold` was called for. -/
  holds : List ℕ
  /-- The requests that were refused, or whose `hold` failed, before `stop()`. -/
  failed : List ℕ
  deriving DecidableEq

inductive HeldLockEvent
  | start
  | stop
  | granted (number : ℕ)
  /-- The browser takes an aborted request out of the queue. -/
  | withdrawn (number : ℕ)
  | refused (number : ℕ) (isAbortError : Bool)
  /-- The callback of the request runs. -/
  | entered (number : ℕ)
  | holdSettled (number : ℕ) (result : LockRequestResult)
  /-- The browser lets the lock go, once the callback has settled. -/
  | letGo (number : ℕ)
  | reacted (number : ℕ)
  /-- `onFailed` returns. -/
  | reported (number : ℕ)
  | ended (number : ℕ)
  | timer (number : ℕ)
  | stopResolved (number : Option ℕ)
  deriving DecidableEq

namespace HeldLock

def init : HeldLock := ⟨false, none, none, none, [], [], [], 0, [], []⟩

def start (s : HeldLock) : HeldLock :=
  if s.isStopped ∨ s.abort.isSome then s
  else { s with
    abort := some s.made
    ended := some s.made
    requests := s.requests ++ [⟨s.made, false, .queued, false, none, .waiting⟩]
    made := s.made + 1 }

/-- `stop()`, up to its wait. -/
def stop (s : HeldLock) : HeldLock :=
  if s.isStopped then { s with stopping := s.ended :: s.stopping }
  else { s with
    isStopped := true
    timers := s.timers.filter fun number => some number ≠ s.retry
    retry := none
    requests := KeyedList.adjust (fun r => some r.number) s.abort (fun r =>
      { r with isAborted := true }) s.requests
    stopping := s.ended :: s.stopping }

def setRequest (s : HeldLock) (r : HeldRequest) : HeldLock :=
  { s with requests := KeyedList.put HeldRequest.number r s.requests }

/-- What an event does that is about one request. -/
def onRequest (s : HeldLock) (number : ℕ) (f : HeldRequest → Option HeldLock) : Option HeldLock :=
  (KeyedList.lookup HeldRequest.number number s.requests).bind f

/-- A refused request, or a failed `hold`, is one the lock owes another request for. -/
def fail (s : HeldLock) (number : ℕ) : HeldLock :=
  if s.isStopped then s else { s with failed := s.failed ++ [number] }

/-- The callback of a request: granted after `stop()`, it returns at once. -/
def enter (s : HeldLock) (r : HeldRequest) : HeldLock :=
  if s.isStopped then s.setRequest { r with result := some .fulfilled }
  else { s.setRequest { r with isHolding := true } with holds := s.holds ++ [r.number] }

/-- `hold` settles. -/
def settleHold (s : HeldLock) (r : HeldRequest) (result : LockRequestResult) : HeldLock :=
  (if result = .fulfilled then s else s.fail r.number).setRequest
    { r with isHolding := false, result := some result }

/-- The reaction to the end of a request, up to `onFailed`. -/
def react (s : HeldLock) (r : HeldRequest) : HeldLock :=
  s.setRequest { r with
    reaction := if r.result = some (.rejected false) ∧ ¬ s.isStopped then .reporting else .reacted }

/-- The rest of it. -/
def setRetry (s : HeldLock) (r : HeldRequest) : HeldLock :=
  { s.setRequest { r with reaction := .reacted } with
    retry := some r.number
    timers := s.timers ++ [r.number] }

def finish (s : HeldLock) (r : HeldRequest) : HeldLock :=
  { s with abort := none, requests := KeyedList.erase HeldRequest.number r.number s.requests }

/-- What the timer runs. -/
def runTimer (s : HeldLock) (number : ℕ) : HeldLock :=
  { s with retry := none, timers := s.timers.filter (· ≠ number) }.start

def step (s : HeldLock) : HeldLockEvent → Option HeldLock
  | .start => some s.start
  | .stop => some s.stop
  | .granted number =>
    s.onRequest number fun r => if r.lock = .queued then
      some (s.setRequest { r with lock := .held })
    else none
  | .withdrawn number => s.onRequest number fun r =>
    if r.lock = .queued ∧ r.isAborted then
      some (s.setRequest { r with lock := .gone, result := some (.rejected true) })
    else none
  | .refused number isAbortError => s.onRequest number fun r =>
    if r.lock = .queued then some ((s.fail number).setRequest
      { r with lock := .gone, result := some (.rejected isAbortError) }) else none
  | .entered number => s.onRequest number fun r =>
    if r.lock = .held ∧ ¬ r.isHolding ∧ r.result = none then some (s.enter r) else none
  | .holdSettled number result =>
    s.onRequest number fun r => if r.isHolding then some (s.settleHold r result) else none
  | .letGo number => s.onRequest number fun r =>
    if r.lock = .held ∧ r.result.isSome then some (s.setRequest { r with lock := .gone }) else none
  | .reacted number =>
    s.onRequest number fun r =>
      if r.lock = .gone ∧ r.reaction = .waiting then some (s.react r) else none
  | .reported number =>
    s.onRequest number fun r => if r.reaction = .reporting then some (s.setRetry r) else none
  | .ended number =>
    s.onRequest number fun r => if r.reaction = .reacted then some (s.finish r) else none
  | .timer number =>
    if number ∈ s.timers ∧ (s.requests.all fun r => r.lock ≠ .gone) then some (s.runTimer number)
    else none
  | .stopResolved number =>
    if number ∈ s.stopping ∧ (s.requests.all fun r => some r.number ≠ number) then
      some { s with stopping := s.stopping.erase number }
    else none

end HeldLock

def heldLock : TransitionSystem HeldLock HeldLockEvent := ⟨.init, HeldLock.step⟩

namespace HeldLock

/-- The lock is requested, held and let go consistently. -/
structure IsConsistent (s : HeldLock) : Prop where
  alone : s.requests.length ≤ 1
  held : ∀ r ∈ s.requests, r.isHolding → r.lock = .held
  once : s.holds.Nodup
  stopped : ∀ e s', s.step e = some s' → s.isStopped →
    s'.isStopped ∧ s'.made = s.made ∧ s'.holds = s.holds
  stopResolves : ∀ number s', s.step (.stopResolved number) = some s' → s.requests = []
  /-- Another request has been made, or the pause before it has begun, or the failure has yet to be
  reacted to. -/
  retried : ∀ number ∈ s.failed, s.isStopped ∨ number + 1 < s.made ∨ number ∈ s.timers ∨
    ∃ r ∈ s.requests, r.number = number ∧ r.reaction ≠ .reacted
  retries : ∀ number s', s.step (.timer number) = some s' → s.isStopped ∨ number + 1 < s'.made

/-- The condition: nothing ends with an `AbortError` before `stop()`. -/
def abortsOnlyStopped (s : HeldLock) : HeldLockEvent → Bool
  | .refused _ isAbortError => s.isStopped || !isAbortError
  | .holdSettled _ result => s.isStopped || decide (result ≠ .rejected true)
  | _ => true

end HeldLock

/-! ### what holds throughout -/

/-- A request, beside the grants `hold` was called for and the timers that are set. -/
structure HeldRequest.Sound (r : HeldRequest) (holds timers : List ℕ) : Prop where
  holding : r.isHolding → r.lock = .held ∧ r.result = none
  queued : r.lock = .queued → r.result = none
  entered : ¬ r.isHolding → r.result = none → r.number ∉ holds
  reaction : r.reaction ≠ .waiting → r.lock = .gone
  timer : r.number ∈ timers → r.reaction = .reacted

namespace HeldLock

/-- The one request under way is the last that was made, and the one `stop()` aborts and waits
for. -/
structure IsCurrent (s : HeldLock) (r : HeldRequest) : Prop where
  requests : s.requests = [r]
  abort : s.abort = some r.number
  ended : s.ended = some r.number
  last : r.number + 1 = s.made

structure Sound (s : HeldLock) : Prop where
  current : s.requests = [] ∧ s.abort = none ∨ ∃ r, s.IsCurrent r ∧ r.Sound s.holds s.timers
  once : s.holds.Nodup
  holds : ∀ number ∈ s.holds, number < s.made
  timers : ∀ number ∈ s.timers, number < s.made
  failed : ∀ number ∈ s.failed, number < s.made
  stopping : ∀ number ∈ s.stopping, s.isStopped ∧ number = s.ended

variable {s s' : HeldLock} {r r' : HeldRequest} {number : ℕ}

theorem sound_init : init.Sound where
  current := Or.inl ⟨rfl, rfl⟩
  once := List.nodup_nil
  holds := List.forall_mem_nil _
  timers := List.forall_mem_nil _
  failed := List.forall_mem_nil _
  stopping := List.forall_mem_nil _

/-- An event about a request is about one in the list, which meets the guard. -/
theorem exists_of_onRequest {p : HeldRequest → Prop} [DecidablePred p] {f : HeldRequest → HeldLock}
    (h : s.onRequest number (fun r => if p r then some (f r) else none) = some s') :
    ∃ r ∈ s.requests, r.number = number ∧ p r ∧ s' = f r := by
  obtain ⟨r, hlookup, hf⟩ := Option.bind_eq_some_iff.mp h
  obtain ⟨hguard, hf⟩ := Option.ite_none_right_eq_some.mp hf
  exact ⟨r, KeyedList.mem_of_lookup hlookup, KeyedList.key_of_lookup hlookup, hguard,
    (Option.some.inj hf).symm⟩

theorem Sound.of_onRequest (hs : s.Sound) {p : HeldRequest → Prop} [DecidablePred p]
    {f : HeldRequest → HeldLock}
    (h : s.onRequest number (fun r => if p r then some (f r) else none) = some s') :
    ∃ r, s.IsCurrent r ∧ r.Sound s.holds s.timers ∧ r.number = number ∧ p r ∧ s' = f r := by
  obtain ⟨r, hmem, hnumber, hguard, hf⟩ := exists_of_onRequest h
  obtain ⟨hnone, _⟩ | ⟨r', hcurrent, hsound⟩ := hs.current
  · rw [hnone] at hmem
    exact absurd hmem List.not_mem_nil
  · rw [hcurrent.requests] at hmem
    obtain rfl := List.mem_singleton.mp hmem
    exact ⟨r, hcurrent, hsound, hnumber, hguard, hf⟩

variable (r') in
theorem IsCurrent.setRequest (h : s.IsCurrent r) (hnumber : r'.number = r.number) :
    (s.setRequest r').requests = [r'] ∧ (s.setRequest r').IsCurrent r' := by
  have hput : (s.setRequest r').requests = [r'] := by
    simp only [HeldLock.setRequest, h.requests, KeyedList.put, hnumber, if_true]
  refine ⟨hput, hput, ?_, ?_, ?_⟩
  · rw [hnumber]
    exact h.abort
  · rw [hnumber]
    exact h.ended
  · rw [hnumber]
    exact h.last

/-- A step that leaves the requests alone keeps what is known of them. -/
theorem Sound.current_congr (hs : s.Sound) (hrequests : s'.requests = s.requests)
    (habort : s'.abort = s.abort)
    (hended : s'.ended = s.ended) (hmade : s'.made = s.made)
    (hsound : ∀ r : HeldRequest, r.Sound s.holds s.timers → r.Sound s'.holds s'.timers) :
    s'.requests = [] ∧ s'.abort = none ∨ ∃ r, s'.IsCurrent r ∧ r.Sound s'.holds s'.timers := by
  obtain ⟨hnone, hidle⟩ | ⟨r, hcurrent, hr⟩ := hs.current
  · exact Or.inl ⟨hrequests.trans hnone, habort.trans hidle⟩
  · refine Or.inr ⟨r, ⟨hrequests.trans hcurrent.requests, habort.trans hcurrent.abort,
      hended.trans hcurrent.ended, ?_⟩, hsound r hr⟩
    exact hcurrent.last.trans hmade.symm

/-- The request under way goes on. -/
theorem Sound.setRequest (hs : s.Sound) (h : s.IsCurrent r) (hnumber : r'.number = r.number)
    (hr' : r'.Sound s.holds s.timers) :
    (s.setRequest r').Sound :=
  { hs with current := Or.inr ⟨r', (h.setRequest r' hnumber).2, hr'⟩ }

theorem Sound.fail (hs : s.Sound) (h : s.IsCurrent r) : (s.fail r.number).Sound := by
  unfold HeldLock.fail
  split
  · exact hs
  · refine { hs with
      current := hs.current_congr rfl rfl rfl rfl fun _ hr => hr
      failed := fun n hn => ?_ }
    obtain hn | hn := List.mem_append.mp hn
    · exact hs.failed n hn
    · rw [List.mem_singleton.mp hn]
      exact Nat.lt_of_succ_le (Nat.le_of_eq h.last)

theorem IsCurrent.fail (h : s.IsCurrent r) : (s.fail number).IsCurrent r := by
  unfold HeldLock.fail
  split
  · exact h
  · exact { h with }

theorem fail_holds (s : HeldLock) (number : ℕ) :
    (s.fail number).holds = s.holds ∧ (s.fail number).timers = s.timers := by
  unfold fail
  split
  · exact ⟨rfl, rfl⟩
  · exact ⟨rfl, rfl⟩

/-! ### the calls -/

theorem Sound.start (hs : s.Sound) : s.start.Sound := by
  unfold HeldLock.start
  split
  · exact hs
  · next hguard =>
    have hstopped : ¬ s.isStopped := fun h => hguard (Or.inl h)
    have hbelow : ∀ {l : List ℕ}, (∀ n ∈ l, n < s.made) → ∀ n ∈ l, n < s.made + 1 :=
      fun h n hn => Nat.lt_succ_of_lt (h n hn)
    obtain ⟨hnone, _⟩ | ⟨r, hcurrent, _⟩ := hs.current
    · refine ⟨Or.inr ⟨_, ⟨by rw [hnone, List.nil_append], rfl, rfl, rfl⟩, ?_⟩, hs.once,
        hbelow hs.holds, hbelow hs.timers,
        hbelow hs.failed, fun n hn => absurd (hs.stopping n hn).1 hstopped⟩
      exact ⟨fun h => absurd h Bool.false_ne_true, fun _ => rfl, fun _ _ h =>
        absurd (hs.holds _ h) (Nat.lt_irrefl _),
        fun h => absurd rfl h, fun h => absurd (hs.timers _ h) (Nat.lt_irrefl _)⟩
    · exact absurd (Or.inr (by rw [hcurrent.abort]; rfl)) hguard

theorem Sound.stop (hs : s.Sound) : s.stop.Sound := by
  unfold HeldLock.stop
  split
  · next hstopped =>
    refine { hs with
      current := hs.current_congr rfl rfl rfl rfl fun _ hr => hr
      stopping := fun n hn => ?_ }
    obtain rfl | hn := List.mem_cons.mp hn
    · exact ⟨hstopped, rfl⟩
    · exact hs.stopping n hn
  · next hstopped =>
    refine ⟨?_, hs.once, hs.holds, fun n hn => hs.timers n (List.mem_of_mem_filter hn), hs.failed,
      fun n hn => ?_⟩
    · obtain ⟨hnone, habort⟩ | ⟨r, hcurrent, hr⟩ := hs.current
      · refine Or.inl ⟨?_, habort⟩
        rw [hnone]
        rfl
      · refine Or.inr ⟨{ r with
          isAborted := true }, ⟨?_, hcurrent.abort, hcurrent.ended, hcurrent.last⟩, ?_⟩
        · simp only [hcurrent.requests, hcurrent.abort, KeyedList.adjust, List.map_cons,
            List.map_nil, if_true]
        · exact ⟨hr.holding, hr.queued, hr.entered, hr.reaction, fun h =>
            hr.timer (List.mem_of_mem_filter h)⟩
    · obtain rfl | hn := List.mem_cons.mp hn
      · exact ⟨rfl, rfl⟩
      · exact absurd (hs.stopping n hn).1 hstopped

/-! ### the steps of a request -/

theorem Sound.enter (hs : s.Sound) (h : s.IsCurrent r) (hr : r.Sound s.holds s.timers)
    (hheld : r.lock = .held)
    (hholding : ¬ r.isHolding) (hresult : r.result = none) : (s.enter r).Sound := by
  unfold HeldLock.enter
  split
  · refine hs.setRequest h rfl ⟨fun h => absurd h hholding, fun h => ?_, (fun _ h => by cases h),
      hr.reaction, hr.timer⟩
    exact absurd (hheld.symm.trans h) (by simp)
  · have hnew := hr.entered hholding hresult
    have hcurrent := (h.setRequest { r with isHolding := true } rfl).2
    refine ⟨Or.inr ⟨_, { hcurrent with }, ?_⟩, ?_,
      fun n hn => ?_, hs.timers, hs.failed, hs.stopping⟩
    · exact ⟨fun _ => ⟨hheld, hresult⟩, hr.queued, fun h => absurd rfl h, hr.reaction, hr.timer⟩
    · exact List.Nodup.append hs.once (List.nodup_singleton _) (List.disjoint_singleton.mpr hnew)
    · obtain hn | hn := List.mem_append.mp hn
      · exact hs.holds n hn
      · rw [List.mem_singleton.mp hn]
        exact Nat.lt_of_succ_le (Nat.le_of_eq h.last)

theorem Sound.settleHold (hs : s.Sound) (h : s.IsCurrent r) (hr : r.Sound s.holds s.timers)
    (hholding : r.isHolding)
    (result : LockRequestResult) : (s.settleHold r result).Sound := by
  have hheld := (hr.holding hholding).1
  have hsettled : HeldRequest.Sound
      { r with isHolding := false, result := some result } s.holds s.timers :=
    ⟨fun h => absurd h Bool.false_ne_true, fun h => absurd (hheld.symm.trans h) (by simp),
      (fun _ h => by cases h), hr.reaction, hr.timer⟩
  unfold HeldLock.settleHold
  split
  · exact hs.setRequest h rfl hsettled
  · refine (hs.fail h).setRequest h.fail rfl ?_
    rw [(fail_holds s r.number).1, (fail_holds s r.number).2]
    exact hsettled

theorem Sound.react (hs : s.Sound) (h : s.IsCurrent r) (hr : r.Sound s.holds s.timers)
    (hgone : r.lock = .gone)
    (hwaiting : r.reaction = .waiting) : (s.react r).Sound := by
  refine hs.setRequest h rfl ⟨hr.holding, hr.queued, hr.entered, fun _ => hgone, fun h => ?_⟩
  exact absurd (hwaiting.symm.trans (hr.timer h)) (by simp)

theorem Sound.setRetry (hs : s.Sound) (h : s.IsCurrent r) (hr : r.Sound s.holds s.timers)
    (hreporting : r.reaction = .reporting) :
    (s.setRetry r).Sound := by
  have hgone := hr.reaction (by rw [hreporting]; simp)
  have hcurrent := (h.setRequest { r with reaction := .reacted } rfl).2
  refine ⟨Or.inr ⟨_, { hcurrent with }, ?_⟩, hs.once, hs.holds,
    fun n hn => ?_, hs.failed, hs.stopping⟩
  · exact ⟨hr.holding, hr.queued, hr.entered, fun _ => hgone, fun _ => rfl⟩
  · obtain hn | hn := List.mem_append.mp hn
    · exact hs.timers n hn
    · rw [List.mem_singleton.mp hn]
      exact Nat.lt_of_succ_le (Nat.le_of_eq h.last)

theorem IsCurrent.finish (h : s.IsCurrent r) : (s.finish r).requests = [] := by
  simp [HeldLock.finish, h.requests, KeyedList.erase]

theorem Sound.runTimer (hs : s.Sound) : (s.runTimer number).Sound := by
  refine Sound.start ⟨hs.current_congr rfl rfl rfl rfl fun r hr => ?_, hs.once, hs.holds,
    fun n hn => hs.timers n (List.mem_of_mem_filter hn), hs.failed, hs.stopping⟩
  exact ⟨hr.holding, hr.queued, hr.entered, hr.reaction, fun h =>
    hr.timer (List.mem_of_mem_filter h)⟩

/-- What a step about a request that is still queued leaves behind. -/
theorem gone_of_queued (hr : r.Sound s.holds s.timers) (hqueued : r.lock = .queued)
    (result : LockRequestResult) :
    HeldRequest.Sound { r with lock := .gone, result := some result } s.holds s.timers := by
  refine ⟨fun h => ?_, (fun h => by cases h), (fun _ h => by cases h), fun _ => rfl,
    fun h => hr.timer h⟩
  exact absurd (hqueued.symm.trans (hr.holding h).1) (by simp)

theorem Sound.step (hs : s.Sound) {e : HeldLockEvent} (hstep : s.step e = some s') : s'.Sound := by
  cases e with
  | start =>
    obtain rfl := Option.some.inj hstep
    exact hs.start
  | stop =>
    obtain rfl := Option.some.inj hstep
    exact hs.stop
  | granted n =>
    obtain ⟨r, h, hr, rfl, hqueued, rfl⟩ := hs.of_onRequest hstep
    have hreaction : r.reaction = .waiting := by
      by_contra hne
      exact absurd (hqueued.symm.trans (hr.reaction hne)) (by simp)
    refine hs.setRequest h rfl ⟨fun h => ?_, (fun h => by cases h), hr.entered,
      fun h => absurd hreaction h, hr.timer⟩
    exact absurd (hqueued.symm.trans (hr.holding h).1) (by simp)
  | withdrawn n =>
    obtain ⟨r, h, hr, rfl, hguard, rfl⟩ := hs.of_onRequest hstep
    exact hs.setRequest h rfl (gone_of_queued hr hguard.1 _)
  | refused n isAbortError =>
    obtain ⟨r, h, hr, rfl, hqueued, rfl⟩ := hs.of_onRequest hstep
    refine (hs.fail h).setRequest h.fail rfl ?_
    rw [(fail_holds s r.number).1, (fail_holds s r.number).2]
    exact gone_of_queued hr hqueued _
  | entered n =>
    obtain ⟨r, h, hr, rfl, ⟨hheld, hholding, hresult⟩, rfl⟩ := hs.of_onRequest hstep
    exact hs.enter h hr hheld hholding hresult
  | holdSettled n result =>
    obtain ⟨r, h, hr, rfl, hholding, rfl⟩ := hs.of_onRequest hstep
    exact hs.settleHold h hr hholding result
  | letGo n =>
    obtain ⟨r, h, hr, rfl, ⟨hheld, hresult⟩, rfl⟩ := hs.of_onRequest hstep
    refine hs.setRequest h rfl ⟨fun h => ?_, (fun h => by cases h), hr.entered,
      fun _ => rfl, hr.timer⟩
    rw [(hr.holding h).2] at hresult
    cases hresult
  | reacted n =>
    obtain ⟨r, h, hr, rfl, ⟨hgone, hwaiting⟩, rfl⟩ := hs.of_onRequest hstep
    exact hs.react h hr hgone hwaiting
  | reported n =>
    obtain ⟨r, h, hr, rfl, hreporting, rfl⟩ := hs.of_onRequest hstep
    exact hs.setRetry h hr hreporting
  | ended n =>
    obtain ⟨r, h, hr, rfl, _, rfl⟩ := hs.of_onRequest hstep
    exact { hs with current := Or.inl ⟨h.finish, rfl⟩ }
  | timer n =>
    obtain ⟨_, hstep⟩ := Option.ite_none_right_eq_some.mp hstep
    obtain rfl := Option.some.inj hstep
    exact hs.runTimer
  | stopResolved n =>
    obtain ⟨_, hstep⟩ := Option.ite_none_right_eq_some.mp hstep
    obtain rfl := Option.some.inj hstep
    exact { hs with
      current := hs.current_congr rfl rfl rfl rfl fun _ hr => hr
      stopping := fun m hm => hs.stopping m (List.mem_of_mem_erase hm) }

/-! ### a failure is followed by another request -/

end HeldLock

/-- The failure of the request has yet to be reacted to. -/
def HeldRequest.OwesRetry (r : HeldRequest) : Prop :=
  r.result = some (.rejected false) ∧ r.reaction ≠ .reacted

namespace HeldLock

variable {s s' : HeldLock} {r r' : HeldRequest} {number : ℕ}

/-- The failure of this request is followed by another request, or is going to be. -/
def IsRetried (s : HeldLock) (number : ℕ) : Prop :=
  s.isStopped ∨ number + 1 < s.made ∨ number ∈ s.timers ∨
    ∃ r ∈ s.requests, r.number = number ∧ r.OwesRetry

def Retrying (s : HeldLock) : Prop := ∀ number ∈ s.failed, s.IsRetried number

theorem IsRetried.setRequest (h : s.IsRetried number) (hr : s.IsCurrent r)
    (hnumber : r'.number = r.number)
    (howes : r.OwesRetry → r'.OwesRetry) : (s.setRequest r').IsRetried number := by
  obtain h | h | h | ⟨r₁, hmem, hr₁, hr₁owes⟩ := h
  · exact Or.inl h
  · exact Or.inr (Or.inl h)
  · exact Or.inr (Or.inr (Or.inl h))
  · rw [hr.requests] at hmem
    obtain rfl := List.mem_singleton.mp hmem
    refine Or.inr (Or.inr (Or.inr ⟨r', ?_, hnumber.trans hr₁, howes hr₁owes⟩))
    rw [(hr.setRequest r' hnumber).1]
    exact List.mem_singleton_self r'

/-- A failure that is recorded is one the request under way owes another request for. -/
theorem Retrying.fail (h : s.Retrying) (hr : s.IsCurrent r) (hnumber : r'.number = r.number)
    (hclear : ¬ r.OwesRetry)
    (howes : ¬ s.isStopped → r'.OwesRetry) : ((s.fail r.number).setRequest r').Retrying := by
  intro number hmem
  unfold HeldLock.fail at hmem ⊢
  by_cases hstopped : s.isStopped
  · rw [if_pos hstopped]
    exact Or.inl hstopped
  · rw [if_neg hstopped] at hmem ⊢
    have hcurrent : ({ s with failed := s.failed ++ [r.number] } : HeldLock).IsCurrent r :=
      { hr with }
    obtain hmem | hmem := List.mem_append.mp hmem
    · exact IsRetried.setRequest (s := { s with failed := s.failed ++ [r.number] }) (h number hmem)
          hcurrent hnumber
        fun howed => absurd howed hclear
    · refine Or.inr (Or.inr (Or.inr ⟨r', ?_, hnumber.trans (List.mem_singleton.mp hmem).symm,
        howes hstopped⟩))
      rw [(hcurrent.setRequest r' hnumber).1]
      exact List.mem_singleton_self r'

theorem start_of_stopped (h : s.isStopped) : s.start = s := if_pos (Or.inl h)

/-- A start leaves another request after every failed one, or finds one under way. -/
theorem IsRetried.start (h : s.IsRetried number) (hmade : number < s.made) :
    s.start.IsRetried number := by
  unfold HeldLock.start
  split
  · exact h
  · exact Or.inr (Or.inl (Nat.succ_lt_succ hmade))

/-- When a timer fires, another request has been made after the one that set it. -/
theorem Sound.runTimer_made (hs : s.Sound) (hset : number ∈ s.timers)
    (hlocks : ∀ r ∈ s.requests, r.lock ≠ .gone)
    (hstopped : ¬ s.isStopped) : number + 1 < (s.runTimer number).made := by
  have hmade := hs.timers number hset
  unfold HeldLock.runTimer HeldLock.start
  obtain ⟨_, habort⟩ | ⟨r, hcurrent, hr⟩ := hs.current
  · rw [if_neg]
    · exact Nat.succ_lt_succ hmade
    · simp [habort, hstopped]
  · have hne : number ≠ r.number := by
      rintro rfl
      have hreacted := hr.timer hset
      refine hlocks r ?_ (hr.reaction (by rw [hreacted]; simp))
      rw [hcurrent.requests]
      exact List.mem_singleton_self r
    have hlast := hcurrent.last
    rw [if_pos (Or.inr (by simp only [hcurrent.abort, Option.isSome_some]))]
    simp only []
    omega

theorem Retrying.runTimer (h : s.Retrying) (hs : s.Sound) (hset : number ∈ s.timers)
    (hlocks : ∀ r ∈ s.requests, r.lock ≠ .gone) :
    (s.runTimer number).Retrying := by
  by_cases hstopped : s.isStopped
  · intro _ _
    unfold HeldLock.runTimer
    rw [start_of_stopped (s := { s with
      retry := none, timers := s.timers.filter (· ≠ number) }) hstopped]
    exact Or.inl hstopped
  · intro failed hmem
    have hmem : failed ∈ s.failed := by
      unfold HeldLock.runTimer HeldLock.start at hmem
      split at hmem
      · exact hmem
      · exact hmem
    by_cases heq : failed = number
    · subst heq
      exact Or.inr (Or.inl (hs.runTimer_made hset hlocks hstopped))
    · refine IsRetried.start (s := { s with retry := none, timers := s.timers.filter (· ≠ number) })
        ?_ (hs.failed failed hmem)
      obtain hretried | hretried | hretried | hretried := h failed hmem
      · exact Or.inl hretried
      · exact Or.inr (Or.inl hretried)
      · exact Or.inr (Or.inr (Or.inl (List.mem_filter.mpr ⟨hretried, decide_eq_true heq⟩)))
      · exact Or.inr (Or.inr (Or.inr hretried))

theorem Retrying.setRequest (h : s.Retrying) (hr : s.IsCurrent r) (hnumber : r'.number = r.number)
    (howes : r.OwesRetry → r'.OwesRetry) : (s.setRequest r').Retrying :=
    fun n hn => (h n hn).setRequest hr hnumber howes

theorem not_owesRetry (h : r.result = none) : ¬ r.OwesRetry := by
  intro howes
  have hresult := howes.1
  rw [h] at hresult
  cases hresult

theorem Retrying.enter (h : s.Retrying) (hr : s.IsCurrent r) (hresult : r.result = none) :
    (s.enter r).Retrying := by
  have hclear := not_owesRetry hresult
  unfold HeldLock.enter
  split
  · exact h.setRequest hr rfl fun howes => absurd howes hclear
  · have hretrying : (s.setRequest { r with isHolding := true }).Retrying :=
      h.setRequest hr rfl fun howes => absurd howes hclear
    exact hretrying

theorem Retrying.settleHold (h : s.Retrying) (hr : s.IsCurrent r)
    (hsound : r.Sound s.holds s.timers) (hholding : r.isHolding)
    {result : LockRequestResult} (hplain : ¬ s.isStopped → result ≠ .rejected true) :
    (s.settleHold r result).Retrying := by
  obtain ⟨hheld, hresult⟩ := hsound.holding hholding
  have hclear := not_owesRetry hresult
  have hreaction : r.reaction ≠ .reacted := by
    intro hreacted
    exact absurd (hheld.symm.trans (hsound.reaction (by rw [hreacted]; simp))) (by simp)
  unfold HeldLock.settleHold
  split
  · exact h.setRequest hr rfl fun howes => absurd howes hclear
  · next hfailed =>
    refine h.fail hr rfl hclear fun hstopped => ⟨?_, hreaction⟩
    have hne := hplain hstopped
    cases result with
    | fulfilled => exact absurd rfl hfailed
    | rejected isAbortError =>
      cases isAbortError with
      | true => exact absurd rfl hne
      | false => rfl

theorem Retrying.react (h : s.Retrying) (hr : s.IsCurrent r) : (s.react r).Retrying := by
  intro number hmem
  by_cases hstopped : s.isStopped
  · exact Or.inl hstopped
  · refine IsRetried.setRequest (h number hmem) hr rfl fun howes => ⟨howes.1, ?_⟩
    simp only [howes.1, hstopped, Bool.false_eq_true, not_false_eq_true, and_self, if_true]
    simp

theorem Retrying.setRetry (h : s.Retrying) (hr : s.IsCurrent r) : (s.setRetry r).Retrying := by
  intro number hmem
  obtain hretried | hretried | hretried | ⟨r₁, hmem₁, rfl, _⟩ := h number hmem
  · exact Or.inl hretried
  · exact Or.inr (Or.inl hretried)
  · exact Or.inr (Or.inr (Or.inl (List.mem_append_left _ hretried)))
  · rw [hr.requests] at hmem₁
    rw [List.mem_singleton.mp hmem₁]
    exact Or.inr (Or.inr (Or.inl (List.mem_append_right _ (List.mem_singleton_self _))))

theorem Retrying.finish (h : s.Retrying) (hr : s.IsCurrent r) (hreacted : r.reaction = .reacted) :
    (s.finish r).Retrying := by
  intro number hmem
  obtain hretried | hretried | hretried | ⟨r₁, hmem₁, _, howes⟩ := h number hmem
  · exact Or.inl hretried
  · exact Or.inr (Or.inl hretried)
  · exact Or.inr (Or.inr (Or.inl hretried))
  · rw [hr.requests] at hmem₁
    rw [List.mem_singleton.mp hmem₁] at howes
    exact absurd hreacted howes.2

theorem Retrying.step (h : s.Retrying) (hs : s.Sound) {e : HeldLockEvent}
    (hplain : s.abortsOnlyStopped e = true)
    (hstep : s.step e = some s') : s'.Retrying := by
  cases e with
  | start =>
    obtain rfl := Option.some.inj hstep
    intro number hmem
    have hmem : number ∈ s.failed := by
      unfold HeldLock.start at hmem
      split at hmem
      · exact hmem
      · exact hmem
    exact (h number hmem).start (hs.failed number hmem)
  | stop =>
    obtain rfl := Option.some.inj hstep
    unfold HeldLock.stop
    split
    · next hstopped => exact fun _ _ => Or.inl hstopped
    · exact fun _ _ => Or.inl rfl
  | granted n =>
    obtain ⟨r, hr, _, rfl, _, rfl⟩ := hs.of_onRequest hstep
    exact h.setRequest hr rfl fun howes => howes
  | withdrawn n =>
    obtain ⟨r, hr, hsound, rfl, hguard, rfl⟩ := hs.of_onRequest hstep
    exact h.setRequest hr rfl fun howes => absurd howes (not_owesRetry (hsound.queued hguard.1))
  | refused n isAbortError =>
    obtain ⟨r, hr, hsound, rfl, hqueued, rfl⟩ := hs.of_onRequest hstep
    refine h.fail hr rfl (not_owesRetry (hsound.queued hqueued)) fun hstopped =>
      ⟨?_, fun hreacted => ?_⟩
    · simp only [abortsOnlyStopped, hstopped, Bool.false_or, Bool.not_eq_true'] at hplain
      simp only [hplain]
    · have hgone := hsound.reaction (by simp only [] at hreacted; rw [hreacted]; simp)
      exact absurd (hqueued.symm.trans hgone) (by simp)
  | entered n =>
    obtain ⟨r, hr, _, rfl, hguard, rfl⟩ := hs.of_onRequest hstep
    exact h.enter hr hguard.2.2
  | holdSettled n result =>
    obtain ⟨r, hr, hsound, rfl, hholding, rfl⟩ := hs.of_onRequest hstep
    refine h.settleHold hr hsound hholding fun hstopped => ?_
    simpa [abortsOnlyStopped, hstopped] using hplain
  | letGo n =>
    obtain ⟨r, hr, _, rfl, _, rfl⟩ := hs.of_onRequest hstep
    exact h.setRequest hr rfl fun howes => howes
  | reacted n =>
    obtain ⟨r, hr, _, rfl, _, rfl⟩ := hs.of_onRequest hstep
    exact h.react hr
  | reported n =>
    obtain ⟨r, hr, _, rfl, _, rfl⟩ := hs.of_onRequest hstep
    exact h.setRetry hr
  | ended n =>
    obtain ⟨r, hr, _, rfl, hreacted, rfl⟩ := hs.of_onRequest hstep
    exact h.finish hr hreacted
  | timer n =>
    obtain ⟨⟨hset, hlocks⟩, hstep⟩ := Option.ite_none_right_eq_some.mp hstep
    obtain rfl := Option.some.inj hstep
    exact h.runTimer hs hset fun r hr => of_decide_eq_true (List.all_eq_true.mp hlocks r hr)
  | stopResolved n =>
    obtain ⟨_, hstep⟩ := Option.ite_none_right_eq_some.mp hstep
    obtain rfl := Option.some.inj hstep
    exact h

/-! ### after `stop()` -/

theorem Sound.requests_of_stopResolved (hs : s.Sound) {number : Option ℕ}
    (hstep : s.step (.stopResolved number) = some s') :
    s.requests = [] := by
  obtain ⟨⟨hwaits, hended⟩, _⟩ := Option.ite_none_right_eq_some.mp hstep
  obtain ⟨hnone, _⟩ | ⟨r, hcurrent, _⟩ := hs.current
  · exact hnone
  · rw [hcurrent.requests, List.all_cons, Bool.and_eq_true, (hs.stopping number hwaits).2,
      hcurrent.ended] at hended
    exact absurd rfl (of_decide_eq_true hended.1)

/-- What stays as it is once the lock was stopped. -/
def StaysStopped (s s' : HeldLock) : Prop := s'.isStopped ∧ s'.made = s.made ∧ s'.holds = s.holds

theorem staysStopped_settleHold (hstopped : s.isStopped) (result : LockRequestResult) :
    s.StaysStopped (s.settleHold r result) := by
  unfold settleHold fail
  rw [if_pos hstopped, ite_self]
  exact ⟨hstopped, rfl, rfl⟩

theorem staysStopped_enter (hstopped : s.isStopped) : s.StaysStopped (s.enter r) := by
  unfold enter
  rw [if_pos hstopped]
  exact ⟨hstopped, rfl, rfl⟩

theorem staysStopped_step {e : HeldLockEvent} (hstep : s.step e = some s')
    (hstopped : s.isStopped) : s.StaysStopped s' := by
  have hsame : s.StaysStopped s := ⟨hstopped, rfl, rfl⟩
  cases e with
  | start =>
    obtain rfl := Option.some.inj hstep
    rw [start_of_stopped hstopped]
    exact hsame
  | stop =>
    obtain rfl := Option.some.inj hstep
    unfold HeldLock.stop
    rw [if_pos hstopped]
    exact hsame
  | granted n | withdrawn n | letGo n | reacted n | reported n | ended n =>
    obtain ⟨r, _, _, _, rfl⟩ := exists_of_onRequest hstep
    exact hsame
  | refused n isAbortError =>
    obtain ⟨r, _, _, _, rfl⟩ := exists_of_onRequest hstep
    unfold fail
    rw [if_pos hstopped]
    exact hsame
  | entered n =>
    obtain ⟨r, _, _, _, rfl⟩ := exists_of_onRequest hstep
    exact staysStopped_enter hstopped
  | holdSettled n result =>
    obtain ⟨r, _, _, _, rfl⟩ := exists_of_onRequest hstep
    exact staysStopped_settleHold hstopped result
  | timer n =>
    obtain ⟨_, hstep⟩ := Option.ite_none_right_eq_some.mp hstep
    obtain rfl := Option.some.inj hstep
    unfold HeldLock.runTimer
    rw [start_of_stopped (s := { s with
      retry := none, timers := s.timers.filter (· ≠ n) }) hstopped]
    exact hsame
  | stopResolved n =>
    obtain ⟨_, hstep⟩ := Option.ite_none_right_eq_some.mp hstep
    obtain rfl := Option.some.inj hstep
    exact hsame

/-! ### every run -/

theorem Sound.isConsistent (hs : s.Sound) (hretrying : s.Retrying) : s.IsConsistent where
  alone := by
    obtain ⟨hnone, _⟩ | ⟨r, hcurrent, _⟩ := hs.current
    · rw [hnone]
      exact Nat.zero_le _
    · rw [hcurrent.requests]
      exact Nat.le_refl _
  held r hmem hholding := by
    obtain ⟨hnone, _⟩ | ⟨r', hcurrent, hr⟩ := hs.current
    · rw [hnone] at hmem
      exact absurd hmem List.not_mem_nil
    · rw [hcurrent.requests] at hmem
      obtain rfl := List.mem_singleton.mp hmem
      exact (hr.holding hholding).1
  once := hs.once
  stopped _ _ hstep hstopped := staysStopped_step hstep hstopped
  stopResolves _ _ hstep := hs.requests_of_stopResolved hstep
  retried number hmem := by
    obtain hretried | hretried | hretried | ⟨r, hr, hnumber, howes⟩ := hretrying number hmem
    · exact Or.inl hretried
    · exact Or.inr (Or.inl hretried)
    · exact Or.inr (Or.inr (Or.inl hretried))
    · exact Or.inr (Or.inr (Or.inr ⟨r, hr, hnumber, howes.2⟩))
  retries number s' hstep := by
    obtain ⟨⟨hset, hlocks⟩, hstep⟩ := Option.ite_none_right_eq_some.mp hstep
    obtain rfl := Option.some.inj hstep
    refine or_iff_not_imp_left.mpr fun hstopped => hs.runTimer_made hset (fun r hr => ?_) hstopped
    exact of_decide_eq_true (List.all_eq_true.mp hlocks r hr)

/-- **A held lock is requested, held and let go consistently**, as long as nothing but `stop()`
makes a request end with an `AbortError`. -/
theorem requested_held_let_go {es : List HeldLockEvent} (hrun : heldLock.run es = some s)
    (hplain : heldLock.Always (fun s e => s.abortsOnlyStopped e = true) es) : s.IsConsistent := by
  have hinvariant : s.Sound ∧ s.Retrying :=
      heldLock.run_invariant (P := fun s => s.Sound ∧ s.Retrying) ⟨sound_init,
      List.forall_mem_nil _⟩
    (fun _ _ _ h hevent hstep => ⟨h.1.step hstep, h.2.step h.1 hevent hstep⟩) hplain hrun
  exact hinvariant.1.isConsistent hinvariant.2

/-- `hold` fails, the lock is requested again after the pause and refused, and `onFailed` stops it;
it was started by hand in between. -/
def refusedAndStopped : List HeldLockEvent :=
  [.start, .granted 0, .entered 0, .start, .holdSettled 0 (.rejected false), .letGo 0, .reacted 0,
    .start, .reported 0, .ended 0, .timer 0,
    .refused 1 false, .reacted 1, .reported 1, .ended 1, .start, .granted 2, .entered 2, .timer 1,
    .stop, .holdSettled 2 .fulfilled,
    .letGo 2, .reacted 2, .ended 2, .stopResolved (some 2), .start]

theorem requested_held_let_go_refusedAndStopped :
    ∃ s, heldLock.run refusedAndStopped = some s ∧ s.made = 3 ∧ s.failed = [0, 1] ∧
      s.IsConsistent := by
  obtain ⟨s, hrun, hfacts⟩ := (Option.any_eq_true _ _).mp
    (show (heldLock.run refusedAndStopped).any (fun s =>
      decide (s.made = 3 ∧ s.failed = [0, 1])) = true by decide)
  obtain ⟨hmade, hfailed⟩ := of_decide_eq_true hfacts
  exact ⟨s, hrun, hmade, hfailed, requested_held_let_go hrun
    (TransitionSystem.always_of_alwaysFrom abortsOnlyStopped (by decide))⟩

/-- `hold` rejects with an `AbortError`: it is neither reported nor is the lock requested again. -/
theorem failed_hold_forgotten :
    ∃ s, heldLock.run [.start, .granted 0, .entered 0, .holdSettled 0 (.rejected true), .letGo 0,
      .reacted 0, .ended 0] = some s ∧
      s = { HeldLock.init with
      ended := some 0
      made := 1
      holds := [0]
      failed := [0] } ∧ ¬ s.IsConsistent := by
  refine ⟨_, rfl, rfl, fun hconsistent => ?_⟩
  exact absurd (hconsistent.retried 0 (by decide)) (by decide)

end HeldLock

end SerialBroker
