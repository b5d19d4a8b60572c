import Mathlib.Data.List.Nodup
import Mathlib.Data.List.Range
import Mathlib.Data.Nat.Notation
import SerialBroker.Lib.KeyedList
import SerialBroker.Lib.TransitionSystem

/-!
# The queue of the jobs at one port

`WriteQueue` of `owner/write-queue.ts`. A job is the key it was queued under. What the queue leaves
to a promise is a microtask here, and the microtasks run one after another in the order they were
queued; calls of `enqueueWithdrawable`, `withdraw` and `drain` and the end of the running job may
come between any two of them. A job's first synchronous part runs when it is the running job
already, so what it calls is a call like any other.

`begun`, `ended` and `withdrawn` are not in the source: they record what became of the jobs, and
`before` of a drain which jobs were queued when it was called.
-/

namespace SerialBroker

abbrev JobKey := ℕ
abbrev DrainId := ℕ

/-- How the promise of a job settles. -/
inductive QueuedOutcome
  | succeeded
  | failed
  | abandoned
  deriving DecidableEq

/-- What a promise of the queue goes on with. -/
inductive QueueTask
  /-- The microtask of `#scheduleStart`. -/
  | start
  /-- `start` of the entry goes on after its job. -/
  | settle (key : JobKey) (outcome : QueuedOutcome)
  /-- `#startNext` goes on after the entry's `start`. -/
  | finish (key : JobKey)
  /-- `Promise.all` of a drain hears of a job. -/
  | hear (drain : DrainId) (key : JobKey)
  /-- The drain goes on after `Promise.all`. -/
  | resume (drain : DrainId)
  deriving DecidableEq

/-- The job whose end the task passes on. -/
def QueueTask.job : QueueTask → Option JobKey
  | .settle key _ => some key
  | .finish key => some key
  | _ => none

/-- The drain that goes on with the task. -/
def QueueTask.drain : QueueTask → Option DrainId
  | .hear id _ => some id
  | .resume id => some id
  | _ => none

structure QueueDrain where
  id : DrainId
  before : JobKey
  /-- What `Promise.all` has not heard of yet. -/
  pending : List JobKey
  isResolved : Bool
  deriving DecidableEq

/-- The task is on its way to the drain. -/
def QueueTask.IsFor (d : QueueDrain) : QueueTask → Prop
  | .start => False
  | .settle key _ => key ∈ d.pending
  | .finish key => key ∈ d.pending
  | .hear id _ => id = d.id
  | .resume id => id = d.id

structure WriteQueue where
  waiting : List JobKey
  running : Option JobKey
  nextKey : JobKey
  isStartScheduled : Bool
  tasks : List QueueTask
  outcomes : List (JobKey × QueuedOutcome)
  drains : List QueueDrain
  begun : List JobKey
  ended : List JobKey
  withdrawn : List JobKey

namespace WriteQueue

def init : WriteQueue := ⟨[], none, 0, false, [], [], [], [], [], []⟩

def scheduleStart (q : WriteQueue) : WriteQueue :=
  if q.running.isSome || q.isStartScheduled then q
  else { q with isStartScheduled := true, tasks := q.tasks ++ [.start] }

def enqueueWithdrawable (q : WriteQueue) : WriteQueue :=
  { q with nextKey := q.nextKey + 1, waiting := q.waiting ++ [q.nextKey] }.scheduleStart

/-- The `finished` signal of a job resolves: every drain that waits for it will hear of it. -/
def resolveFinished (q : WriteQueue) (key : JobKey) : WriteQueue :=
  { q with
    tasks := q.tasks ++ (q.drains.filter fun d => key ∈ d.pending).map fun d => .hear d.id key }

def withdraw (q : WriteQueue) (key : JobKey) : WriteQueue × Bool :=
  if key ∈ q.waiting then
    ({ q with
              waiting := q.waiting.erase key
              outcomes := q.outcomes ++ [(key, QueuedOutcome.abandoned)],
              withdrawn := q.withdrawn ++ [key] }.resolveFinished key, true)
  else (q, false)

/-- `drain` resolves through `Promise.all`, which resolves at once where nothing is queued. -/
def drain (q : WriteQueue) : WriteQueue :=
  let pending := q.waiting ++ q.running.toList
  { q with drains := q.drains ++ [⟨q.drains.length, q.nextKey, pending, false⟩],
           tasks := q.tasks ++ if pending = [] then [.resume q.drains.length] else [] }

def startNext (q : WriteQueue) : WriteQueue :=
  match q.running, q.waiting with
  | none, key :: rest => { q with waiting := rest, running := some key, begun := q.begun ++ [key] }
  | _, _ => q

def adjustDrain (q : WriteQueue) (id : DrainId) (f : QueueDrain → QueueDrain) : WriteQueue :=
  { q with drains := KeyedList.adjust QueueDrain.id id f q.drains }

/-- `Promise.all` hears of a job, and of the last one it waits for. -/
def hear (q : WriteQueue) (id : DrainId) (key : JobKey) : WriteQueue :=
  let heard := q.adjustDrain id fun d => { d with pending := d.pending.filter (· ≠ key) }
  if ∃ d ∈ heard.drains, d.id = id ∧ d.pending = [] then
    { heard with tasks := heard.tasks ++ [.resume id] }
  else heard

def runTask (q : WriteQueue) : QueueTask → WriteQueue
  | .start => { q with isStartScheduled := false }.startNext
  | .settle key outcome =>
    { q with outcomes := q.outcomes ++ [(key, outcome)], tasks := q.tasks ++ [.finish key] }
  | .finish key => ({ q with running := none }.resolveFinished key).startNext
  | .hear id key => q.hear id key
  | .resume id => q.adjustDrain id fun d => { d with isResolved := true }

end WriteQueue

inductive QueueEvent
  | enqueue
  | withdraw (key : JobKey)
  | drain
  /-- The promise of the running job settles. -/
  | jobEnds (isSuccess : Bool)
  /-- The first of the queued microtasks runs. -/
  | turn
  deriving DecidableEq

namespace WriteQueue

def step (q : WriteQueue) : QueueEvent → Option WriteQueue
  | .enqueue => some q.enqueueWithdrawable
  | .withdraw key => if key < q.nextKey then some (q.withdraw key).1 else none
  | .drain => some q.drain
  | .jobEnds isSuccess => q.running.bind fun key =>
      if key ∈ q.ended then none
      else some { q with
        ended := q.ended ++ [key]
        tasks := q.tasks ++ [.settle key (if isSuccess then .succeeded else .failed)] }
  | .turn => match q.tasks with
    | [] => none
    | task :: rest => some ({ q with tasks := rest }.runTask task)

/-- The runs of a queue, from an empty one. -/
def runs : TransitionSystem WriteQueue QueueEvent := ⟨init, step⟩

variable {q q' : WriteQueue} {key : JobKey} {task : QueueTask} {event : QueueEvent}

theorem startNext_tasks : q.startNext.tasks = q.tasks := by
  rw [WriteQueue.startNext]
  split <;> rfl

theorem startNext_drains : q.startNext.drains = q.drains := by
  rw [WriteQueue.startNext]
  split <;> rfl

/-- What holds between the queue, its microtasks and the jobs in every run. -/
structure Core (q : WriteQueue) : Prop where
  order : q.begun ++ q.waiting = (List.range q.nextKey).filter (· ∉ q.withdrawn)
  old : ∀ key ∈ q.withdrawn, key < q.nextKey
  begunBefore : ∃ done, q.begun = done ++ q.running.toList ∧ ∀ key ∈ done, key ∈ q.ended
  endedBegun : ∀ key ∈ q.ended, key ∈ q.begun
  starts : q.tasks.filter (· = .start) = if q.isStartScheduled then [.start] else []
  scheduled : q.isStartScheduled = true → q.running = none
  jobs : q.tasks.filterMap QueueTask.job = q.running.toList.filter (· ∈ q.ended)

structure Sound (q : WriteQueue) : Prop extends Core q where
  awake : q.waiting ≠ [] → q.running ≠ none ∨ q.isStartScheduled = true

/-- What holds between a drain, the queue and its microtasks. -/
structure DrainSound (q : WriteQueue) (d : QueueDrain) : Prop where
  before : d.before ≤ q.nextKey
  pendingBefore : ∀ key ∈ d.pending, key < d.before
  pending : ∀ key ∈ d.pending, key ∈ q.waiting ∨ q.running = some key ∨ .hear d.id key ∈ q.tasks
  rest : ∀ key < d.before, key ∉ d.pending → key ∈ q.ended ∨ key ∈ q.withdrawn
  heard : ∀ key, .hear d.id key ∈ q.tasks → key ∈ q.ended ∨ key ∈ q.withdrawn
  empty : d.pending = [] → d.isResolved = true ∨ .resume d.id ∈ q.tasks
  resumed : .resume d.id ∈ q.tasks → d.pending = []
  resolved : d.isResolved = true → d.pending = []

/-! ### the jobs -/

namespace Core

theorem nodup (h : Core q) : (q.begun ++ q.waiting).Nodup := by
  rw [h.order]
  exact List.nodup_range.filter _

theorem mem_iff (h : Core q) :
    key ∈ q.begun ∨ key ∈ q.waiting ↔ key < q.nextKey ∧ key ∉ q.withdrawn := by
  rw [← List.mem_append, h.order, List.mem_filter, List.mem_range, decide_eq_true_iff]

theorem not_begun (h : Core q) (hwaiting : key ∈ q.waiting) : key ∉ q.begun := fun hbegun =>
  List.disjoint_of_nodup_append h.nodup hbegun hwaiting

theorem begun_of_running (h : Core q) (hrunning : q.running = some key) : key ∈ q.begun := by
  obtain ⟨done, hbegun, _⟩ := h.begunBefore
  rw [hbegun, hrunning]
  exact List.mem_append_right _ (List.mem_singleton_self key)

theorem running_or_ended (h : Core q) (hbegun : key ∈ q.begun) :
    q.running = some key ∨ key ∈ q.ended := by
  obtain ⟨done, hdone, hended⟩ := h.begunBefore
  rw [hdone, List.mem_append, Option.mem_toList] at hbegun
  exact hbegun.elim (fun hkey => .inr (hended key hkey)) .inl

/-- More microtasks that start nothing and pass no end of a job on. -/
theorem queue {more : List QueueTask} (h : Core q) (hstart : ∀ task ∈ more, task ≠ .start)
    (hjob : ∀ task ∈ more, task.job = none) : Core { q with tasks := q.tasks ++ more } where
  order := h.order
  old := h.old
  begunBefore := h.begunBefore
  endedBegun := h.endedBegun
  scheduled := h.scheduled
  starts := by
    have hnone : more.filter (· = .start) = [] := by
      apply List.filter_eq_nil_iff.mpr
      intro task htask
      simpa using hstart task htask
    rw [List.filter_append, hnone, List.append_nil]
    exact h.starts
  jobs := by
    have hnone : more.filterMap QueueTask.job = [] := List.filterMap_eq_nil_iff.mpr hjob
    rw [List.filterMap_append, hnone, List.append_nil]
    exact h.jobs

/-- The jobs depend on no drain and on no outcome. -/
theorem note (h : Core q) (drains : List QueueDrain) (outcomes : List (JobKey × QueuedOutcome)) :
    Core { q with drains := drains, outcomes := outcomes } :=
  ⟨h.order, h.old, h.begunBefore, h.endedBegun, h.starts, h.scheduled, h.jobs⟩

theorem resolveFinished (h : Core q) : Core (q.resolveFinished key) := by
  refine h.queue (fun task htask => ?_) fun task htask => ?_
  · obtain ⟨d, _, rfl⟩ := List.mem_map.mp htask
    exact QueueTask.noConfusion
  · obtain ⟨d, _, rfl⟩ := List.mem_map.mp htask
    rfl

/-- The first job that waits begins, unless one is running or is to be started. -/
theorem startNext (h : Core q) (hstart : q.isStartScheduled = false) : Sound q.startNext := by
  obtain ⟨waiting, running, nextKey, isStartScheduled, tasks, outcomes, drains, begun, ended,
    withdrawn⟩ := q
  obtain rfl : isStartScheduled = false := hstart
  cases running with
  | some key => exact ⟨h, fun _ => .inl (Option.some_ne_none key)⟩
  | none =>
    cases waiting with
    | nil => exact ⟨h, fun hwaiting => absurd rfl hwaiting⟩
    | cons key rest =>
      have hnot : key ∉ ended :=
        fun hended => h.not_begun List.mem_cons_self (h.endedBegun key hended)
      refine ⟨⟨?_, h.old, ⟨begun, rfl, fun other hother => ?_⟩, fun other hother => ?_, h.starts,
        fun hfalse => ?_, ?_⟩,
        fun _ => .inl (Option.some_ne_none key)⟩
      · show begun ++ [key] ++ rest = _
        rw [List.append_assoc]
        exact h.order
      · exact (h.running_or_ended hother).resolve_left (Option.some_ne_none other).symm
      · exact List.mem_append_left _ (h.endedBegun other hother)
      · cases hfalse
      · refine h.jobs.trans ?_
        show [] = [key].filter (· ∈ ended)
        rw [List.filter_cons_of_neg (by simpa using hnot), List.filter_nil]

/-- A microtask that passes the end of a job on passes on that of the running job, and is the only
one. -/
theorem job_first {rest : List QueueTask} (h : Core q) (htasks : q.tasks = task :: rest)
    (hjob : task.job = some key) :
    q.running = some key ∧ key ∈ q.ended ∧ rest.filterMap QueueTask.job = [] := by
  have hjobs := h.jobs
  rw [htasks, List.filterMap_cons_some hjob] at hjobs
  cases hrunning : q.running with
  | none =>
    rw [hrunning] at hjobs
    cases hjobs
  | some other =>
    rw [hrunning, Option.toList_some, List.filter_cons, List.filter_nil] at hjobs
    split at hjobs
    case isTrue hended =>
      obtain ⟨rfl, hrest⟩ := List.cons.inj hjobs
      exact ⟨rfl, by simpa using hended, hrest⟩
    case isFalse hended => cases hjobs

/-- The queue without its first microtask, which starts nothing and passes no end of a job on. -/
theorem pass {rest : List QueueTask} (h : Core q) (htasks : q.tasks = task :: rest)
    (hstart : task ≠ .start)
    (hjob : task.job = none) : Core { q with tasks := rest } := by
  have hstarts := h.starts
  have hjobs := h.jobs
  rw [htasks, List.filter_cons_of_neg (by simpa using hstart)] at hstarts
  rw [htasks, List.filterMap_cons_none hjob] at hjobs
  exact ⟨h.order, h.old, h.begunBefore, h.endedBegun, hstarts, h.scheduled, hjobs⟩

end Core

namespace Sound

theorem enqueueWithdrawable (h : Sound q) : Sound q.enqueueWithdrawable := by
  have hnew : q.nextKey ∉ q.withdrawn := fun hold => absurd (h.old _ hold) (Nat.lt_irrefl _)
  have horder : q.begun ++ (q.waiting ++ [q.nextKey]) = (List.range (q.nextKey + 1)).filter (· ∉
      q.withdrawn) := by
    rw [List.range_succ, List.filter_append, ← h.order,
      List.filter_cons_of_pos (by simpa using hnew), List.filter_nil,
      List.append_assoc]
  have hold : ∀ key ∈ q.withdrawn, key < q.nextKey + 1 :=
    fun key hkey => Nat.lt_succ_of_lt (h.old key hkey)
  have hcore : Core { q with nextKey := q.nextKey + 1, waiting := q.waiting ++ [q.nextKey] } :=
    ⟨horder, hold, h.begunBefore, h.endedBegun, h.starts, h.scheduled, h.jobs⟩
  rw [WriteQueue.enqueueWithdrawable, scheduleStart]
  split
  case isTrue hbusy =>
    refine ⟨hcore, fun _ => ?_⟩
    rw [Bool.or_eq_true, Option.isSome_iff_ne_none] at hbusy
    exact hbusy
  case isFalse hidle =>
    obtain ⟨hrunning, hstart⟩ := Bool.or_eq_false_iff.mp (Bool.eq_false_iff.mpr hidle)
    have hrunning : q.running = none :=
      Option.not_isSome_iff_eq_none.mp (Bool.eq_false_iff.mp hrunning)
    have hstarts := h.starts
    rw [show q.isStartScheduled = false from hstart] at hstarts
    refine ⟨⟨horder, hold, h.begunBefore, h.endedBegun, ?_, fun _ => hrunning, ?_⟩,
      fun _ => .inr rfl⟩
    · show (q.tasks ++ [QueueTask.start]).filter _ = [.start]
      rw [List.filter_append, hstarts]
      rfl
    · show (q.tasks ++ [QueueTask.start]).filterMap _ = _
      rw [List.filterMap_append, h.jobs]
      exact List.append_nil _

theorem withdraw (h : Sound q) (hwaiting : key ∈ q.waiting) : Sound (q.withdraw key).1 := by
  have hnodup : q.waiting.Nodup := (List.nodup_append.mp h.nodup).2.1
  rw [WriteQueue.withdraw, if_pos hwaiting]
  refine ⟨Core.resolveFinished ⟨?_, fun other hother => ?_, h.begunBefore, h.endedBegun, h.starts,
    h.scheduled, h.jobs⟩,
    fun hne => h.awake (List.ne_nil_of_mem hwaiting)⟩
  · show q.begun ++ q.waiting.erase key = (List.range q.nextKey).filter (· ∉ q.withdrawn ++ [key])
    have hbegun : q.begun.filter (· ≠ key) = q.begun := by
      apply List.filter_eq_self.mpr
      intro other hother
      have hne : other ≠ key := by
        intro heq
        exact h.not_begun hwaiting (heq ▸ hother)
      simpa using hne
    calc q.begun ++ q.waiting.erase key
        = (q.begun ++ q.waiting).filter (· ≠ key) := by
          rw [List.filter_append, hbegun, hnodup.erase_eq_filter]
          simp only [bne, ne_eq, decide_not, beq_eq_decide]
      _ = (List.range q.nextKey).filter (· ∉ q.withdrawn ++ [key]) := by
          rw [h.order, List.filter_filter]
          congr 1
          funext other
          simp only [List.mem_append, List.mem_singleton, not_or, Bool.decide_and, ne_eq,
            Bool.and_comm]
  · obtain hold | rfl := (List.mem_append.mp hother).imp_right List.mem_singleton.mp
    · exact h.old other hold
    · exact (h.mem_iff.mp (.inr hwaiting)).1

theorem drain (h : Sound q) : Sound q.drain := by
  refine ⟨(h.toCore.queue (fun task htask => ?_) fun task htask => ?_).note .., h.awake⟩
  all_goals
    split at htask
    case isTrue hnone =>
      obtain rfl := List.mem_singleton.mp htask
      first | rfl | exact QueueTask.noConfusion
    case isFalse hsome => cases htask

theorem jobEnds {isSuccess : Bool} (h : Sound q) (hstep : q.step (.jobEnds isSuccess) = some q') :
    Sound q' := by
  obtain ⟨key, hrunning, hstep⟩ := Option.bind_eq_some_iff.mp hstep
  split at hstep
  case isTrue hended => cases hstep
  case isFalse hended =>
    cases hstep
    have hjobs := h.jobs
    rw [hrunning, Option.toList_some, List.filter_cons_of_neg (by simpa using hended),
      List.filter_nil] at hjobs
    obtain ⟨done, hbegun, hdone⟩ := h.begunBefore
    refine ⟨⟨h.order, h.old, ⟨done, hbegun, fun other hother =>
      List.mem_append_left _ (hdone other hother)⟩,
      fun other hother => ?_, ?_, h.scheduled, ?_⟩, h.awake⟩
    · obtain hother | rfl := (List.mem_append.mp hother).imp_right List.mem_singleton.mp
      · exact h.endedBegun other hother
      · exact h.begun_of_running hrunning
    · show (q.tasks ++ [_]).filter _ = _
      rw [List.filter_append, h.starts]
      exact List.append_nil _
    · show (q.tasks ++ [_]).filterMap _ = q.running.toList.filter (· ∈ q.ended ++ [key])
      rw [List.filterMap_append, hjobs, hrunning, Option.toList_some,
        List.filter_cons_of_pos (by simp)]
      rfl

theorem hear {id : DrainId} (h : Sound q) : Sound (q.hear id key) := by
  rw [WriteQueue.hear]
  split
  case isTrue hempty =>
    refine ⟨((h.note _ q.outcomes).queue (fun task htask => ?_) fun task htask => ?_), h.awake⟩
    all_goals
      obtain rfl := List.mem_singleton.mp htask
      first | rfl | exact QueueTask.noConfusion
  case isFalse hsome => exact ⟨h.note _ q.outcomes, h.awake⟩

/-- The first microtask ends in a sound queue. -/
theorem turn {rest : List QueueTask} (h : Sound q) (htasks : q.tasks = task :: rest) :
    Sound ({ q with tasks := rest }.runTask task) := by
  have hstarts := h.starts
  rw [htasks] at hstarts
  cases task with
  | start =>
    have hscheduled : q.isStartScheduled = true := by
      by_contra hnot
      rw [if_neg hnot, List.filter_cons_of_pos (by rfl)] at hstarts
      cases hstarts
    have hjobs := h.jobs
    rw [htasks] at hjobs
    rw [if_pos hscheduled, List.filter_cons_of_pos (by rfl)] at hstarts
    refine Core.startNext ⟨h.order, h.old, h.begunBefore, h.endedBegun, ?_,
      fun hfalse => ?_, hjobs⟩ rfl
    · exact (List.cons.inj hstarts).2
    · cases hfalse
  | settle key outcome =>
    obtain ⟨hrunning, hended, hrest⟩ := h.job_first htasks rfl
    rw [List.filter_cons_of_neg (by simp)] at hstarts
    refine ⟨⟨h.order, h.old, h.begunBefore, h.endedBegun, ?_, h.scheduled, ?_⟩, h.awake⟩
    · show (rest ++ [QueueTask.finish key]).filter _ = _
      rw [List.filter_append, hstarts]
      exact List.append_nil _
    · show (rest ++ [QueueTask.finish key]).filterMap _ = q.running.toList.filter (· ∈ q.ended)
      rw [List.filterMap_append, hrest, hrunning, Option.toList_some,
        List.filter_cons_of_pos (by simpa using hended)]
      rfl
  | finish key =>
    obtain ⟨hrunning, hended, hrest⟩ := h.job_first htasks rfl
    have hstart : q.isStartScheduled = false := by
      by_contra hscheduled
      have hnone := h.scheduled (by simpa using hscheduled)
      rw [hrunning] at hnone
      cases hnone
    rw [List.filter_cons_of_neg (by simp)] at hstarts
    obtain ⟨done, hbegun, hdone⟩ := h.begunBefore
    refine Core.startNext (Core.resolveFinished ⟨h.order, h.old, ⟨q.begun, (List.append_nil _).symm,
      fun other hother => ?_⟩,
      h.endedBegun, hstarts, fun _ => rfl, hrest⟩) hstart
    obtain hother | hother := h.running_or_ended hother
    · rw [hrunning] at hother
      cases hother
      exact hended
    · exact hother
  | hear id key => exact Sound.hear ⟨h.pass htasks QueueTask.noConfusion rfl, h.awake⟩
  | resume id => exact ⟨(h.pass htasks QueueTask.noConfusion rfl).note _ q.outcomes, h.awake⟩

theorem step (h : Sound q) (hstep : q.step event = some q') : Sound q' := by
  cases event with
  | enqueue =>
    cases hstep
    exact h.enqueueWithdrawable
  | withdraw key =>
    rw [WriteQueue.step] at hstep
    split at hstep
    case isTrue hold =>
      cases hstep
      by_cases hwaiting : key ∈ q.waiting
      · exact h.withdraw hwaiting
      · rw [WriteQueue.withdraw, if_neg hwaiting]
        exact h
    case isFalse hnew => cases hstep
  | drain =>
    cases hstep
    exact h.drain
  | jobEnds isSuccess => exact h.jobEnds hstep
  | turn =>
    rw [WriteQueue.step] at hstep
    split at hstep
    case h_1 hnone => cases hstep
    case h_2 task rest htasks =>
      cases hstep
      exact h.turn htasks

end Sound

/-! ### the drains -/

namespace DrainSound

variable {d : QueueDrain}

theorem mono (h : DrainSound q d) (hnext : q.nextKey ≤ q'.nextKey)
    (hended : ∀ key ∈ q.ended, key ∈ q'.ended)
    (hwithdrawn : ∀ key ∈ q.withdrawn, key ∈ q'.withdrawn)
    (hpending : ∀ key ∈ d.pending, key ∈ q.waiting ∨ q.running = some key →
      key ∈ q'.waiting ∨ q'.running = some key ∨ .hear d.id key ∈ q'.tasks)
    (hhears : ∀ key, .hear d.id key ∈ q.tasks → .hear d.id key ∈ q'.tasks)
    (hheard : ∀ key, .hear d.id key ∈ q'.tasks → .hear d.id key ∈ q.tasks ∨ key ∈ q'.ended ∨
      key ∈ q'.withdrawn)
    (hresume : .resume d.id ∈ q'.tasks ↔ .resume d.id ∈ q.tasks) : DrainSound q' d where
  before := h.before.trans hnext
  pendingBefore := h.pendingBefore
  pending := by
    intro key hkey
    obtain hwaiting | hrunning | hhear := h.pending key hkey
    · exact hpending key hkey (.inl hwaiting)
    · exact hpending key hkey (.inr hrunning)
    · exact .inr (.inr (hhears key hhear))
  rest := fun key hkey hnot => (h.rest key hkey hnot).imp (hended key) (hwithdrawn key)
  heard := by
    intro key hhear
    obtain hold | hnew := hheard key hhear
    · exact (h.heard key hold).imp (hended key) (hwithdrawn key)
    · exact hnew
  empty := fun hempty => (h.empty hempty).imp_right hresume.mpr
  resumed := fun hresumes => h.resumed (hresume.mp hresumes)
  resolved := h.resolved

theorem startNext (h : DrainSound q d) : DrainSound q.startNext d := by
  obtain ⟨waiting, running, nextKey, isStartScheduled, tasks, outcomes, drains, begun, ended,
    withdrawn⟩ := q
  cases running with
  | some key => exact h
  | none =>
    cases waiting with
    | nil => exact h
    | cons first rest =>
      refine h.mono (Nat.le_refl _) (fun _ => id) (fun _ => id) (fun key _ hkey => ?_) (fun _ => id)
        (fun _ => .inl) Iff.rfl
      obtain hwaiting | hrunning := hkey
      · obtain rfl | hrest := List.mem_cons.mp hwaiting
        · exact .inr (.inl rfl)
        · exact .inl hrest
      · cases hrunning

theorem scheduleStart (h : DrainSound q d) : DrainSound q.scheduleStart d := by
  rw [WriteQueue.scheduleStart]
  split
  case isTrue => exact h
  case isFalse =>
    refine h.mono (Nat.le_refl _) (fun _ => id) (fun _ => id) (fun key _ hkey =>
        hkey.imp_right .inl)
      (fun key hhear => List.mem_append_left _ hhear) (fun key hhear => .inl ?_) ?_
    · simpa using hhear
    · show _ ∈ q.tasks ++ [_] ↔ _
      simp only [List.mem_append, List.mem_singleton, reduceCtorEq, or_false]

/-- Microtasks that are for other drains make no difference. -/
theorem retask {tasks : List QueueTask} {isStartScheduled : Bool}
    {outcomes : List (JobKey × QueuedOutcome)}
    {drains : List QueueDrain} (h : DrainSound q d)
    (htasks : ∀ task, d.id ∈ task.drain → (task ∈ tasks ↔ task ∈ q.tasks)) :
    DrainSound { q with
    tasks := tasks
    isStartScheduled := isStartScheduled
    outcomes := outcomes
    drains := drains } d :=
  h.mono (Nat.le_refl _) (fun _ h => h) (fun _ h => h) (fun _ _ hkey =>
      hkey.imp_right .inl) (fun _ => (htasks _ rfl).mpr)
    (fun _ hhear => .inl ((htasks _ rfl).mp hhear)) (htasks _ rfl)

/-- A job leaves the queue, and whoever waits for it will hear of it. -/
theorem resolveFinished {waiting : List JobKey} {running : Option JobKey} {withdrawn : List JobKey}
    {tasks : List QueueTask} {outcomes : List (JobKey × QueuedOutcome)} (h : DrainSound q d)
    (hd : d ∈ q.drains)
    (hwithdrawn : ∀ other ∈ q.withdrawn, other ∈ withdrawn)
    (hleft : ∀ other, other ∈ q.waiting ∨ q.running = some other → other = key ∨ other ∈ waiting ∨
      running = some other)
    (hgone : key ∈ q.ended ∨ key ∈ withdrawn)
    (hhears : ∀ other, .hear d.id other ∈ tasks ↔ .hear d.id other ∈ q.tasks)
    (hresume : .resume d.id ∈ tasks ↔ .resume d.id ∈ q.tasks) :
    DrainSound ({ q with
    waiting := waiting
    running := running
    withdrawn := withdrawn
    tasks := tasks,
                         outcomes := outcomes }.resolveFinished key) d := by
  have hmem : ∀ task, task ∈ tasks ++ (q.drains.filter fun d => key ∈ d.pending).map (fun d =>
      QueueTask.hear d.id key) ↔
      task ∈ tasks ∨ ∃ other ∈ q.drains, key ∈ other.pending ∧
        QueueTask.hear other.id key = task := by
    intro task
    simp only [List.mem_append, List.mem_map, List.mem_filter, decide_eq_true_eq, and_assoc]
  refine h.mono (Nat.le_refl _) (fun _ => id) hwithdrawn (fun other hother hkey => ?_)
      (fun other hhear => ?_)
    (fun other hhear => ?_) ?_
  · obtain rfl | hwaiting | hrunning := hleft other hkey
    · exact .inr (.inr ((hmem _).mpr (.inr ⟨d, hd, hother, rfl⟩)))
    · exact .inl hwaiting
    · exact .inr (.inl hrunning)
  · exact (hmem _).mpr (.inl ((hhears other).mpr hhear))
  · obtain hold | ⟨_, _, _, heq⟩ := (hmem _).mp hhear
    · exact .inl ((hhears other).mp hold)
    · obtain ⟨_, rfl⟩ := QueueTask.hear.inj heq
      exact .inr hgone
  · refine ⟨fun hresumes => ?_, fun hresumes => (hmem _).mpr (.inl (hresume.mpr hresumes))⟩
    obtain hold | ⟨_, _, _, heq⟩ := (hmem _).mp hresumes
    · exact hresume.mp hold
    · cases heq

end DrainSound

/-- What holds of the drains in every run. They are numbered in the order they were called. -/
structure Drained (q : WriteQueue) : Prop where
  ids : q.drains.map QueueDrain.id = List.range q.drains.length
  told : ∀ task ∈ q.tasks, ∀ id ∈ task.drain, id < q.drains.length
  sound : ∀ d ∈ q.drains, DrainSound q d

namespace Drained

theorem id_lt (h : Drained q) {d : QueueDrain} (hd : d ∈ q.drains) : d.id < q.drains.length := by
  rw [← List.mem_range, ← h.ids]
  exact List.mem_map_of_mem hd

theorem startNext (h : Drained q) : Drained q.startNext where
  ids := by
    rw [startNext_drains]
    exact h.ids
  told := by
    rw [startNext_tasks, startNext_drains]
    exact h.told
  sound := by
    rw [startNext_drains]
    exact fun d hd => (h.sound d hd).startNext

theorem scheduleStart (h : Drained q) : Drained q.scheduleStart := by
  have hsound : ∀ d ∈ q.drains, DrainSound q.scheduleStart d :=
    fun d hd => (h.sound d hd).scheduleStart
  rw [WriteQueue.scheduleStart] at hsound ⊢
  split
  case isTrue => exact h
  case isFalse hidle =>
    rw [if_neg hidle] at hsound
    refine ⟨h.ids, fun task htask id hid => ?_, hsound⟩
    obtain hold | rfl := (List.mem_append.mp htask).imp_right List.mem_singleton.mp
    · exact h.told task hold id hid
    · cases hid

/-- A job leaves the queue, and whoever waits for it will hear of it. -/
theorem resolveFinished {waiting : List JobKey} {running : Option JobKey} {withdrawn : List JobKey}
    {tasks : List QueueTask} {outcomes : List (JobKey × QueuedOutcome)} (h : Drained q)
    (hwithdrawn : ∀ other ∈ q.withdrawn, other ∈ withdrawn)
    (hleft : ∀ other, other ∈ q.waiting ∨ q.running = some other → other = key ∨ other ∈ waiting ∨
      running = some other)
    (hgone : key ∈ q.ended ∨ key ∈ withdrawn)
    (htasks : ∀ task, task.drain.isSome → (task ∈ tasks ↔ task ∈ q.tasks)) :
    Drained ({ q with
    waiting := waiting
    running := running
    withdrawn := withdrawn
    tasks := tasks,
                      outcomes := outcomes }.resolveFinished key) where
  ids := h.ids
  told := by
    intro task htask id hid
    obtain hold | hnew := List.mem_append.mp htask
    · exact h.told task ((htasks task (Option.isSome_of_mem hid)).mp hold) id hid
    · obtain ⟨d, hd, rfl⟩ := List.mem_map.mp hnew
      cases hid
      exact h.id_lt (List.mem_of_mem_filter hd)
  sound := fun d hd => (h.sound d hd).resolveFinished hd hwithdrawn hleft hgone (fun _ =>
    htasks _ rfl) (htasks _ rfl)

theorem enqueueWithdrawable (h : Drained q) : Drained q.enqueueWithdrawable := by
  refine scheduleStart ⟨h.ids, h.told, fun d hd => ?_⟩
  refine (h.sound d hd).mono (Nat.le_succ _) (fun _ => id) (fun _ => id) (fun key _ hkey => ?_)
      (fun _ => id)
    (fun _ => .inl) Iff.rfl
  exact hkey.imp (List.mem_append_left _) .inl

theorem withdraw (h : Drained q) (hwaiting : key ∈ q.waiting) : Drained (q.withdraw key).1 := by
  rw [WriteQueue.withdraw, if_pos hwaiting]
  refine h.resolveFinished (fun other hother => List.mem_append_left _ hother)
      (fun other hother => ?_)
    (.inr (List.mem_append_right _ (List.mem_singleton_self key))) fun _ _ => Iff.rfl
  by_cases heq : other = key
  · exact .inl heq
  · exact .inr (hother.imp_left (List.mem_erase_of_ne heq).mpr)

theorem drain (h : Drained q) (hq : Core q) : Drained q.drain := by
  have hpending : ∀ key, key ∈ q.waiting ++ q.running.toList ↔
      key ∈ q.waiting ∨ q.running = some key := fun key => by
    rw [List.mem_append, Option.mem_toList]
  have hmem : ∀ task, task ∈ q.drain.tasks ↔
      task ∈ q.tasks ∨ q.waiting ++ q.running.toList = [] ∧ task = .resume q.drains.length := by
    intro task
    rw [WriteQueue.drain, List.mem_append]
    split <;> simp_all
  refine ⟨?_, fun task htask id hid => ?_, fun d hd => ?_⟩
  · show (q.drains ++ [_]).map QueueDrain.id = List.range (q.drains ++ [_]).length
    rw [List.map_append, h.ids, List.length_append, List.length_singleton, List.range_succ]
    rfl
  · show id < (q.drains ++ [_]).length
    rw [List.length_append, List.length_singleton]
    obtain hold | ⟨_, rfl⟩ := (hmem task).mp htask
    · exact Nat.lt_succ_of_lt (h.told task hold id hid)
    · cases hid
      exact Nat.lt_succ_self _
  · obtain hold | rfl := (List.mem_append.mp hd).imp_right List.mem_singleton.mp
    · refine (h.sound d hold).mono (Nat.le_refl _) (fun _ => id) (fun _ => id) (fun key _ hkey =>
          hkey.imp_right .inl)
        (fun key hhear => (hmem _).mpr (.inl hhear)) (fun key hhear => .inl ?_) ⟨fun hresume => ?_,
          fun hresume => (hmem _).mpr (.inl hresume)⟩
      · exact ((hmem _).mp hhear).resolve_right fun hnew => QueueTask.noConfusion hnew.2
      · refine ((hmem _).mp hresume).resolve_right fun hnew => ?_
        exact absurd (h.id_lt hold) (by rw [QueueTask.resume.inj hnew.2]; exact Nat.lt_irrefl _)
    · have hnone : ∀ task ∈ q.tasks, q.drains.length ∉ task.drain := fun task htask hid =>
        absurd (h.told task htask _ hid) (Nat.lt_irrefl _)
      refine ⟨Nat.le_refl _, fun key hkey => ?_, fun key hkey => ?_, fun key hkey hnot => ?_,
        fun key hhear => ?_,
        fun hempty => .inr ((hmem _).mpr (.inr ⟨hempty, rfl⟩)), fun hresume => ?_, fun hfalse => ?_⟩
      · refine (hq.mem_iff.mp ?_).1
        exact ((hpending key).mp hkey).symm.imp_left hq.begun_of_running
      · exact ((hpending key).mp hkey).imp_right .inl
      · rw [hpending, not_or] at hnot
        by_cases hwithdrawn : key ∈ q.withdrawn
        · exact .inr hwithdrawn
        · have hbegun := (hq.mem_iff.mpr ⟨hkey, hwithdrawn⟩).resolve_right hnot.1
          exact .inl ((hq.running_or_ended hbegun).resolve_left hnot.2)
      · obtain hold | ⟨_, hnew⟩ := (hmem _).mp hhear
        · exact absurd rfl (hnone _ hold)
        · cases hnew
      · obtain hold | ⟨hempty, _⟩ := (hmem _).mp hresume
        · exact absurd rfl (hnone _ hold)
        · exact hempty
      · cases hfalse

theorem jobEnds {isSuccess : Bool} (h : Drained q) (hstep : q.step (.jobEnds isSuccess) = some q') :
    Drained q' := by
  obtain ⟨key, hrunning, hstep⟩ := Option.bind_eq_some_iff.mp hstep
  split at hstep
  case isTrue hended => cases hstep
  case isFalse hended =>
    cases hstep
    have hmem : ∀ {task outcome}, task.drain.isSome → task ∈ q.tasks ++ [.settle key outcome] →
        task ∈ q.tasks := by
      intro task outcome hfor htask
      obtain hold | rfl := (List.mem_append.mp htask).imp_right List.mem_singleton.mp
      · exact hold
      · cases hfor
    refine ⟨h.ids, fun task htask id hid => h.told task (hmem (Option.isSome_of_mem hid) htask) id
      hid, fun d hd => ?_⟩
    exact (h.sound d hd).mono (Nat.le_refl _) (fun _ => List.mem_append_left _) (fun _ => id)
      (fun key _ hkey => hkey.imp_right .inl) (fun _ => List.mem_append_left _) (fun _ hhear =>
        .inl (hmem rfl hhear))
      ⟨hmem rfl, List.mem_append_left _⟩

/-- Microtasks that are for no drain make no difference to the drains. -/
theorem retask {tasks : List QueueTask} {isStartScheduled : Bool}
    {outcomes : List (JobKey × QueuedOutcome)} (h : Drained q)
    (htasks : ∀ task, task.drain.isSome → (task ∈ tasks ↔ task ∈ q.tasks)) :
    Drained { q with
    tasks := tasks
    isStartScheduled := isStartScheduled
    outcomes := outcomes } where
  ids := h.ids
  told := fun task htask id hid =>
    h.told task ((htasks task (Option.isSome_of_mem hid)).mp htask) id hid
  sound := fun d hd => (h.sound d hd).retask fun task hid => htasks task (Option.isSome_of_mem hid)

theorem mem_rest {rest : List QueueTask} (htasks : q.tasks = task :: rest)
    (hnone : task.drain = none) (other : QueueTask)
    (hfor : other.drain.isSome) : other ∈ rest ↔ other ∈ q.tasks := by
  rw [htasks, List.mem_cons]
  refine ⟨.inr, fun hmem => hmem.resolve_left ?_⟩
  rintro rfl
  rw [hnone] at hfor
  cases hfor

theorem eq_of_id (h : Drained q) {d other : QueueDrain} (hd : d ∈ q.drains)
    (hother : other ∈ q.drains)
    (hid : d.id = other.id) : d = other := by
  have hdistinct : KeyedList.Distinct QueueDrain.id q.drains := by
    rw [KeyedList.Distinct, h.ids]
    exact List.nodup_range
  exact hdistinct.eq_of_mem hd hother hid

/-- The first microtask is for a drain, which changes; the other drains do not. -/
theorem adjustDrain {rest : List QueueTask} (more : List QueueTask) {id : DrainId}
    {f : QueueDrain → QueueDrain} (h : Drained q)
    (htasks : q.tasks = task :: rest) (hfor : task.drain = some id) (hf : ∀ d, (f d).id = d.id)
    (hmore : ∀ task ∈ more, task.drain = some id)
    (hown : ∀ d ∈ q.drains, d.id = id → DrainSound { q with tasks := rest ++ more } (f d)) :
    Drained ({ q with tasks := rest ++ more }.adjustDrain id f) := by
  have hlt : id < q.drains.length := h.told task (htasks ▸ List.mem_cons_self) id hfor
  refine ⟨?_, fun other hother number hnumber => ?_, fun d hd => ?_⟩
  · show (KeyedList.adjust ..).map _ = List.range (KeyedList.adjust ..).length
    rw [KeyedList.map_adjust hf, KeyedList.length_adjust]
    exact h.ids
  · show number < (KeyedList.adjust ..).length
    rw [KeyedList.length_adjust]
    obtain hrest | hnew := List.mem_append.mp hother
    · exact h.told other (htasks ▸ List.mem_cons_of_mem _ hrest) number hnumber
    · rw [hmore other hnew] at hnumber
      cases hnumber
      exact hlt
  · obtain ⟨old, hold, rfl⟩ := KeyedList.mem_adjust.mp hd
    split
    case isTrue hid =>
      have hsound := hown old hold hid
      exact ⟨hsound.before, hsound.pendingBefore, hsound.pending, hsound.rest, hsound.heard,
        hsound.empty, hsound.resumed,
        hsound.resolved⟩
    case isFalse hid =>
      refine (h.sound old hold).retask fun other hother => ?_
      have hnot : ∀ entry : QueueTask, entry.drain = some id → other ≠ entry := by
        rintro entry hentry rfl
        rw [hentry] at hother
        exact hid (Option.some.inj hother).symm
      rw [htasks, List.mem_append, List.mem_cons]
      refine ⟨fun hmem => ?_, fun hmem => .inl (hmem.resolve_left (hnot task hfor))⟩
      exact .inr (hmem.resolve_right fun hnew => hnot other (hmore other hnew) rfl)

theorem hear {rest : List QueueTask} {id : DrainId} (h : Drained q)
    (htasks : q.tasks = .hear id key :: rest) :
    Drained ({ q with tasks := rest }.hear id key) := by
  have hown : ∀ more, (∀ task ∈ more, task = QueueTask.resume id) → ∀ d ∈ q.drains, d.id = id →
      (d.pending.filter (· ≠ key) = [] → .resume id ∈ more) →
        (more ≠ [] → d.pending.filter (· ≠ key) = []) →
      DrainSound { q with tasks := rest ++ more }
        { d with pending := d.pending.filter (· ≠ key) } := by
    intro more hmore d hd hid hlast hsome
    have hsound := h.sound d hd
    have hrest : ∀ other, .hear d.id other ∈ rest ++ more → .hear d.id other ∈ q.tasks := by
      intro other hother
      rw [htasks]
      refine List.mem_cons_of_mem _ ((List.mem_append.mp hother).resolve_right fun hnew => ?_)
      cases hmore _ hnew
    refine ⟨hsound.before,
      fun other hother => hsound.pendingBefore other (List.mem_of_mem_filter hother), ?_, ?_,
      fun other hother => hsound.heard other (hrest other hother), fun hempty => ?_,
      fun hresume => ?_, fun hresolved => ?_⟩
    · intro other hother
      obtain ⟨hpending, hne⟩ := List.mem_filter.mp hother
      refine (hsound.pending other hpending).imp_right (Or.imp_right fun hhear => ?_)
      rw [htasks, List.mem_cons] at hhear
      refine List.mem_append_left _ (hhear.resolve_left fun heq => ?_)
      obtain ⟨_, rfl⟩ := QueueTask.hear.inj heq
      simp at hne
    · intro other hother hnot
      by_cases heq : other = key
      · rw [heq]
        exact hsound.heard key (by rw [htasks, hid]; exact List.mem_cons_self)
      · exact hsound.rest other hother fun hpending =>
          hnot (List.mem_filter.mpr ⟨hpending, by simpa using heq⟩)
    · exact .inr (List.mem_append_right _ (hid ▸ hlast hempty))
    · obtain hold | hnew := List.mem_append.mp hresume
      · show d.pending.filter _ = []
        rw [hsound.resumed (htasks ▸ List.mem_cons_of_mem _ hold), List.filter_nil]
      · exact hsome (List.ne_nil_of_mem hnew)
    · show d.pending.filter _ = []
      rw [hsound.resolved hresolved, List.filter_nil]
  have hlast : (∃ d ∈ ({ q with tasks := rest }.adjustDrain id fun d =>
      { d with pending := d.pending.filter (· ≠ key) }).drains,
      d.id = id ∧ d.pending = []) ↔
        ∃ d ∈ q.drains, d.id = id ∧ d.pending.filter (· ≠ key) = [] := by
    constructor
    · rintro ⟨d, hd, hid, hempty⟩
      obtain ⟨old, hold, rfl⟩ := KeyedList.mem_adjust.mp hd
      split at hid
      case isTrue hown =>
        rw [if_pos hown] at hempty
        exact ⟨old, hold, hown, hempty⟩
      case isFalse hother => exact absurd hid hother
    · rintro ⟨d, hd, hid, hempty⟩
      refine ⟨_, KeyedList.mem_adjust.mpr ⟨d, hd, rfl⟩, ?_⟩
      rw [if_pos hid]
      exact ⟨hid, hempty⟩
  rw [WriteQueue.hear]
  by_cases hdone : ∃ d ∈ q.drains, d.id = id ∧ d.pending.filter (· ≠ key) = []
  · rw [if_pos (hlast.mpr hdone)]
    obtain ⟨d, hd, hid, hempty⟩ := hdone
    refine h.adjustDrain [.resume id] htasks rfl (fun _ => rfl) (fun task htask => ?_)
      fun other hother hotherId => ?_
    · rw [List.mem_singleton.mp htask]
      rfl
    · obtain rfl := h.eq_of_id hother hd (hotherId.trans hid.symm)
      exact hown _ (fun task htask => List.mem_singleton.mp htask) other hother hotherId
        (fun _ => List.mem_singleton_self _) fun _ => hempty
  · rw [if_neg (mt hlast.mp hdone)]
    have hnone := h.adjustDrain [] htasks rfl (f := fun d =>
        { d with pending := d.pending.filter (· ≠ key) })
      (fun _ => rfl) (fun _ hfalse => by cases hfalse) fun d hd hid =>
          hown [] (fun _ hfalse => by cases hfalse) d hd hid
        (fun hempty => absurd ⟨d, hd, hid, hempty⟩ hdone) (fun hne => absurd rfl hne)
    rw [List.append_nil] at hnone
    exact hnone

theorem resume {rest : List QueueTask} {id : DrainId} (h : Drained q)
    (htasks : q.tasks = .resume id :: rest) :
    Drained ({ q with tasks := rest }.adjustDrain id fun d => { d with isResolved := true }) := by
  have hresumed := h.adjustDrain [] htasks rfl (f := fun d =>
      { d with isResolved := true }) (fun _ => rfl)
    (fun _ hfalse => by cases hfalse) fun d hd hid => ?_
  · rw [List.append_nil] at hresumed
    exact hresumed
  · have hsound := h.sound d hd
    have hpending : d.pending = [] := hsound.resumed (by rw [htasks, hid]; exact List.mem_cons_self)
    rw [List.append_nil]
    refine ⟨hsound.before, hsound.pendingBefore, fun other hother => ?_, hsound.rest,
      fun other hhear => ?_,
      fun _ => .inl rfl, fun _ => hpending, fun _ => hpending⟩
    · rw [show ({ d with isResolved := true } : QueueDrain).pending = [] from hpending] at hother
      cases hother
    · exact hsound.heard other (htasks ▸ List.mem_cons_of_mem _ hhear)

theorem turn {rest : List QueueTask} (h : Drained q) (hq : Core q)
    (htasks : q.tasks = task :: rest) :
    Drained ({ q with tasks := rest }.runTask task) := by
  cases task with
  | start => exact (h.retask (mem_rest htasks rfl)).startNext
  | settle key outcome =>
    refine h.retask fun other hfor => ?_
    rw [← mem_rest htasks rfl other hfor, List.mem_append, List.mem_singleton]
    refine ⟨fun hmem => hmem.resolve_right ?_, .inl⟩
    rintro rfl
    cases hfor
  | finish key =>
    obtain ⟨hrunning, hended, _⟩ := hq.job_first htasks rfl
    refine (h.resolveFinished (fun _ => id) (fun other hother => ?_) (.inl hended)
      (mem_rest htasks rfl)).startNext
    obtain hwaiting | hother := hother
    · exact .inr (.inl hwaiting)
    · rw [hrunning] at hother
      exact .inl (Option.some.inj hother).symm
  | hear id key => exact h.hear htasks
  | resume id => exact h.resume htasks

theorem step (h : Drained q) (hq : Core q) (hstep : q.step event = some q') : Drained q' := by
  cases event with
  | enqueue =>
    cases hstep
    exact h.enqueueWithdrawable
  | withdraw key =>
    rw [WriteQueue.step] at hstep
    split at hstep
    case isTrue hold =>
      cases hstep
      by_cases hwaiting : key ∈ q.waiting
      · exact h.withdraw hwaiting
      · rw [WriteQueue.withdraw, if_neg hwaiting]
        exact h
    case isFalse hnew => cases hstep
  | drain =>
    cases hstep
    exact h.drain hq
  | jobEnds isSuccess => exact h.jobEnds hstep
  | turn =>
    rw [WriteQueue.step] at hstep
    split at hstep
    case h_1 hnone => cases hstep
    case h_2 task rest htasks =>
      cases hstep
      exact h.turn hq htasks

end Drained

/-! ### every run -/

theorem sound_of_run {es : List QueueEvent} (hrun : runs.run es = some q) :
    Sound q ∧ Drained q := by
  refine TransitionSystem.run_invariant_all (T := runs) (P := fun q =>
    Sound q ∧ Drained q) ?_ (fun s e s' h hstep => ?_) hrun
  · have hnone : ∀ {α : Type} {p : α → Prop}, ∀ a ∈ ([] : List α), p a :=
      fun a ha => absurd ha List.not_mem_nil
    exact ⟨⟨⟨rfl, hnone, ⟨[], rfl, hnone⟩, hnone, rfl, fun _ => rfl, rfl⟩, fun hne =>
      absurd rfl hne⟩, ⟨rfl, hnone, hnone⟩⟩
  · exact ⟨h.1.step hstep, h.2.step h.1.toCore hstep⟩

theorem withdraw_snd : (q.withdraw key).2 = true ↔ key ∈ q.waiting := by
  rw [withdraw]
  split
  case isTrue hwaiting => exact ⟨fun _ => hwaiting, fun _ => rfl⟩
  case isFalse hwaiting => exact ⟨Bool.noConfusion, fun hmem => absurd hmem hwaiting⟩

theorem startNext_withdrawn : q.startNext.withdrawn = q.withdrawn := by
  rw [startNext]
  split <;> rfl

/-- A job that was withdrawn stays withdrawn. -/
theorem withdrawn_step (hstep : q.step event = some q') (hkey : key ∈ q.withdrawn) :
    key ∈ q'.withdrawn := by
  cases event with
  | enqueue =>
    cases hstep
    rw [enqueueWithdrawable, scheduleStart]
    split <;> exact hkey
  | withdraw other =>
    rw [step] at hstep
    split at hstep
    case isTrue hold =>
      cases hstep
      rw [withdraw]
      split
      · exact List.mem_append_left _ hkey
      · exact hkey
    case isFalse hnew => cases hstep
  | drain =>
    cases hstep
    exact hkey
  | jobEnds isSuccess =>
    obtain ⟨other, _, hstep⟩ := Option.bind_eq_some_iff.mp hstep
    split at hstep
    · cases hstep
    · cases hstep
      exact hkey
  | turn =>
    rw [step] at hstep
    split at hstep
    · cases hstep
    · cases hstep
      rename_i task rest htasks
      cases task with
      | start =>
        rw [runTask, startNext_withdrawn]
        exact hkey
      | settle other outcome => exact hkey
      | finish other =>
        rw [runTask, startNext_withdrawn]
        exact hkey
      | hear id other =>
        rw [runTask, hear]
        split <;> exact hkey
      | resume id => exact hkey

/-- What the queue promises about its jobs. -/
structure RunsInOrder (q : WriteQueue) : Prop where
  /-- At most one job has begun and not ended. -/
  alone : (q.begun.filter (· ∉ q.ended)).length ≤ 1
  /-- The jobs begin in the order they were queued, less those withdrawn. -/
  order : q.begun ++ q.waiting = (List.range q.nextKey).filter (· ∉ q.withdrawn)
  withdraws : ∀ key < q.nextKey, (q.withdraw key).2 = true ↔ key ∉ q.begun ∧ key ∉ q.withdrawn
  never : ∀ key, (q.withdraw key).2 = true → ∀ es q', runs.runFrom (q.withdraw key).1 es = some q' →
    key ∉ q'.begun
  /-- While jobs wait, one is running or a microtask is queued that starts the next. -/
  awake : q.waiting ≠ [] → (∃ key ∈ q.begun, key ∉ q.ended) ∨ ∃ task ∈ q.tasks, task = .start ∨
    task.job ≠ none
  drainsAfter : ∀ d ∈ q.drains, d.isResolved = true → ∀ key < d.before, key ∈ q.ended ∨
    key ∈ q.withdrawn
  drainsThen : ∀ d ∈ q.drains, (∀ key < d.before, key ∈ q.ended ∨ key ∈ q.withdrawn) →
    d.isResolved = true ∨ ∃ task ∈ q.tasks, task.IsFor d

theorem Sound.alone (h : Sound q) : (q.begun.filter (· ∉ q.ended)).length ≤ 1 := by
  obtain ⟨done, hbegun, hdone⟩ := h.begunBefore
  have hnone : done.filter (· ∉ q.ended) = [] := by
    apply List.filter_eq_nil_iff.mpr
    intro key hkey
    simpa using hdone key hkey
  rw [hbegun, List.filter_append, hnone, List.nil_append]
  calc (q.running.toList.filter (· ∉ q.ended)).length
      ≤ q.running.toList.length := List.length_filter_le ..
    _ ≤ 1 := Option.length_toList_le

theorem Sound.never (h : Sound q) (hsucceeds : (q.withdraw key).2 = true) {es : List QueueEvent}
    (hrun : runs.runFrom (q.withdraw key).1 es = some q') : key ∉ q'.begun := by
  have hwaiting := withdraw_snd.mp hsucceeds
  have hkey : key ∈ (q.withdraw key).1.withdrawn := by
    rw [WriteQueue.withdraw, if_pos hwaiting]
    exact List.mem_append_right _ (List.mem_singleton_self key)
  obtain ⟨hsound, hwithdrawn⟩ :=
      TransitionSystem.runFrom_invariant_all (P := fun q => Sound q ∧ key ∈ q.withdrawn)
    (fun s e s' hs hstep => ⟨hs.1.step hstep, withdrawn_step hstep hs.2⟩)
      ⟨h.withdraw hwaiting, hkey⟩ hrun
  exact fun hbegun => (hsound.mem_iff.mp (.inl hbegun)).2 hwithdrawn

/-- A job that has ended and still counts as running is passed on by a queued microtask. -/
theorem Sound.exists_job (h : Sound q) (hrunning : q.running = some key) (hended : key ∈ q.ended) :
    ∃ task ∈ q.tasks, task.job = some key := by
  have hmem : key ∈ q.tasks.filterMap QueueTask.job := by
    rw [h.jobs, hrunning, Option.toList_some, List.filter_cons_of_pos (by simpa using hended)]
    exact List.mem_cons_self
  exact List.mem_filterMap.mp hmem

theorem Sound.wakes (h : Sound q) (hwaiting : q.waiting ≠ []) :
    (∃ key ∈ q.begun, key ∉ q.ended) ∨ ∃ task ∈ q.tasks, task = .start ∨ task.job ≠ none := by
  obtain hrunning | hscheduled := h.awake hwaiting
  · obtain ⟨key, hrunning⟩ := Option.ne_none_iff_exists'.mp hrunning
    by_cases hended : key ∈ q.ended
    · obtain ⟨task, htask, hjob⟩ := h.exists_job hrunning hended
      exact .inr ⟨task, htask, .inr (by rw [hjob]; exact Option.some_ne_none key)⟩
    · exact .inl ⟨key, h.begun_of_running hrunning, hended⟩
  · have hstart : QueueTask.start ∈ q.tasks.filter (· = .start) := by
      rw [h.starts, if_pos hscheduled]
      exact List.mem_singleton_self _
    exact .inr ⟨.start, List.mem_of_mem_filter hstart, .inl rfl⟩

/-- A drain that waits for no job any more is resolved, or about to be. -/
theorem DrainSound.resolves {d : QueueDrain} (h : DrainSound q d) (hq : Sound q)
    (hdone : ∀ key < d.before, key ∈ q.ended ∨ key ∈ q.withdrawn) :
    d.isResolved = true ∨ ∃ task ∈ q.tasks, task.IsFor d := by
  cases hpending : d.pending with
  | nil => exact (h.empty hpending).imp_right fun hresume => ⟨.resume d.id, hresume, rfl⟩
  | cons key rest =>
    have hkey : key ∈ d.pending := hpending ▸ List.mem_cons_self
    have hgone := hdone key (h.pendingBefore key hkey)
    right
    obtain hwaiting | hrunning | hhear := h.pending key hkey
    · have hnot := hgone.resolve_right (hq.mem_iff.mp (.inr hwaiting)).2
      exact absurd (hq.endedBegun key hnot) (hq.not_begun hwaiting)
    · have hended := hgone.resolve_right (hq.mem_iff.mp (.inl (hq.begun_of_running hrunning))).2
      obtain ⟨task, htask, hjob⟩ := hq.exists_job hrunning hended
      refine ⟨task, htask, ?_⟩
      cases task with
      | settle other outcome =>
        cases hjob
        exact hkey
      | finish other =>
        cases hjob
        exact hkey
      | _ => cases hjob
    · exact ⟨.hear d.id key, hhear, rfl⟩

/-- **The write queue runs each job once and in order, and never sleeps on work.** -/
theorem runsInOrder {es : List QueueEvent} (hrun : runs.run es = some q) : RunsInOrder q := by
  obtain ⟨hsound, hdrained⟩ := sound_of_run hrun
  refine ⟨hsound.alone, hsound.order, fun key hkey => ?_,
    fun key hsucceeds es q' => hsound.never hsucceeds, hsound.wakes,
    fun d hd hresolved key hkey => ?_, fun d hd => (hdrained.sound d hd).resolves hsound⟩
  · rw [withdraw_snd]
    refine ⟨fun hwaiting => ⟨hsound.not_begun hwaiting, (hsound.mem_iff.mp (.inr hwaiting)).2⟩,
      fun hnot => ?_⟩
    exact (hsound.mem_iff.mpr ⟨hkey, hnot.2⟩).resolve_left hnot.1
  · have hd := hdrained.sound d hd
    refine hd.rest key hkey ?_
    rw [hd.resolved hresolved]
    exact List.not_mem_nil

/-- A drain waits for two jobs, of which the second is withdrawn after the first has begun. -/
def drainedJobs : List QueueEvent :=
  [.enqueue, .enqueue, .drain, .turn, .jobEnds true, .withdraw 1, .turn, .turn, .turn, .turn, .turn]

theorem runsInOrder_drainedJobs :
    ∃ q, runs.run drainedJobs = some q ∧
      (q.begun = [0] ∧ q.drains = [⟨0, 2, [], true⟩]) ∧ RunsInOrder q := by
  obtain ⟨q, hrun, hend⟩ := (Option.any_eq_true _ _).mp
    (show (runs.run drainedJobs).any (fun q =>
      decide (q.begun = [0] ∧ q.drains = [⟨0, 2, [], true⟩])) = true by decide)
  exact ⟨q, hrun, of_decide_eq_true hend, runsInOrder hrun⟩

/-- A job that was withdrawn has not begun, and cannot be withdrawn again. -/
theorem not_withdraws_twice :
    ∃ q, runs.run [.enqueue, .withdraw 0] = some q ∧ 0 ∉ q.begun ∧ (q.withdraw 0).2 = false := by
  obtain ⟨q, hrun, hend⟩ := (Option.any_eq_true _ _).mp
    (show (runs.run [.enqueue, .withdraw 0]).any (fun q =>
      decide (0 ∉ q.begun ∧ (q.withdraw 0).2 = false)) = true by decide)
  exact ⟨q, hrun, of_decide_eq_true hend⟩

end WriteQueue

end SerialBroker
