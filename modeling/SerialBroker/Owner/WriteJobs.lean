import Mathlib
import SerialBroker.Client.AcceptedWrites

/-!
# The writes at one port

What `PortSupervisor.write` of `owner/port-supervisor.ts` and the `WriteQueue` under it keep for the
tab that holds the port in one term. A job waits in the queue, is asked about, is written chunk by
chunk, and is answered a few microtasks after it ended. The deadlines of a port are all
`writeTimeoutMs` long, so they run out in the order they were set: a deadline is its place in that
order.

`question` numbers the questions the port asked, and is not in the source; `connection` tells one
open connection from the next.
-/

namespace SerialBroker

abbrev JobId := Nat
abbrev ConnectionId := Nat
abbrev QuestionId := Nat
abbrev DeadlineId := Nat

/-- How many unanswered writes a port keeps, and how many bytes of them. -/
def maxWaitingWrites : Nat := 4096

def maxWaitingWriteBytes : Nat := 4 * 16 * 1024 * 1024

/-- A write accepted at the port. -/
structure Job where
  id : JobId
  key : WriteKey
  payload : Payload
  /-- The deadline set last: of the wait in the queue and for the answer, or of the chunk. -/
  deadline : DeadlineId
  deriving DecidableEq

/-- How far the job at the head of the queue has got. -/
inductive JobStage
  | asking (question : QuestionId)
  | answered (isApproved : Bool)
  | writing (connection : ConnectionId) (bytesWritten : Nat)
  | stalled (connection : ConnectionId)
  deriving DecidableEq

structure RunningJob where
  job : Job
  stage : JobStage
  deriving DecidableEq

/-- A job that has ended and is not answered yet. -/
structure EndedJob where
  job : Job
  outcome : WriteOutcome
  deriving DecidableEq

/-- A question that waits for the answer of the tab that issued the write. -/
structure AwaitedApproval where
  key : WriteKey
  question : QuestionId
  deriving DecidableEq

/-- How far a tab has got in giving the port up. -/
inductive HolderStage
  | serving
  | stopping
  | answering (deadline : DeadlineId)
  | stopped
  deriving DecidableEq

/-- A tab's term of holding the port, and the writes at it. -/
structure Holder where
  term : TermId
  stage : HolderStage
  connection : Option ConnectionId
  waiting : List Job
  running : Option RunningJob
  ended : List EndedJob
  accepted : AcceptedWrites
  awaited : List AwaitedApproval
  nextJob : JobId
  nextConnection : ConnectionId
  nextQuestion : QuestionId
  nextDeadline : DeadlineId
  deriving DecidableEq

namespace Holder

def init (term : TermId) : Holder :=
  { term, stage := .serving, connection := none, waiting := [], running := none, ended := [],
    accepted := .empty,
    awaited := [], nextJob := 0, nextConnection := 0, nextQuestion := 0, nextDeadline := 0 }

/-- The writes `#unanswered` has: a stalled one has been answered. -/
def unanswered (h : Holder) : List Job :=
  h.waiting ++ (match h.running with
    | some ⟨_, .stalled _⟩ | none => []
    | some running => [running.job]) ++ h.ended.map EndedJob.job

def waitingBytes (h : Holder) : Nat := (h.unanswered.map fun job => job.payload.length).sum

/-- `refusalOfWrite`. -/
def isFull (h : Holder) (byteLength : Nat) : Bool :=
  ¬ (h.unanswered.length < maxWaitingWrites ∧ h.waitingBytes + byteLength ≤ maxWaitingWriteBytes)

def enqueue (h : Holder) (key : WriteKey) (payload : Payload) : Holder :=
  { h with
    waiting := h.waiting ++ [⟨h.nextJob, key, payload, h.nextDeadline⟩]
    nextJob := h.nextJob + 1
    nextDeadline := h.nextDeadline + 1 }

/-- The job ends, and the queue goes on with the next. -/
def endJob (h : Holder) (job : Job) (outcome : WriteOutcome) : Holder :=
  { h with running := none, ended := h.ended ++ [⟨job, outcome⟩] }

/-- A write that was not begun: `#notBegun`. -/
def notBegun : WriteOutcome := some ⟨.WRITE_TIMEOUT, some false, none⟩

def notConnected : WriteOutcome := some (.plain .NOT_CONNECTED)

/-- Hands a chunk to the writer of a connection. -/
def writeChunk (h : Holder) (job : Job) (connection : ConnectionId) (bytesWritten : Nat) : Holder :=
  { h with
    running := some ⟨{ job with deadline := h.nextDeadline }, .writing connection bytesWritten⟩
    nextDeadline := h.nextDeadline + 1 }

/-- Whether the streams of every connection have been released. -/
def isTornDown (h : Holder) : Bool :=
  match h.stage with
  | .serving | .stopping => false
  | .answering _ | .stopped => true

/-- `#handleConnectionLoss` after a failed write, while the connection is still the one it was
written to. -/
def loseConnection (h : Holder) (connection : ConnectionId) : Holder :=
  if h.connection = some connection then { h with connection := none } else h

/-- The device has taken a chunk: the next one follows, and is refused by a writer that was
released. -/
def chunkTaken (h : Holder) (job : Job) (connection : ConnectionId)
    (bytesWritten chunkBytes : Nat) : Holder :=
  let bytesWritten := bytesWritten + chunkBytes
  if bytesWritten < job.payload.length then
    if h.isTornDown then h.endJob job (some ⟨.WRITE_FAILED, none, some bytesWritten⟩)
    else h.writeChunk job connection bytesWritten
  else h.endJob job none

/-- `stop()` until its first `await`: nothing is asked any more, and no connection is open. -/
def stop (h : Holder) : Holder :=
  { h with
    stage := .stopping
    connection := none
    running := match h.running with
      | some ⟨job, .asking _⟩ => some ⟨job, .answered false⟩
      | running => running }

/-- Whether every deadline set before this one has run out, and whatever followed from it has
happened. -/
def hasRunOut (h : Holder) (deadline : DeadlineId) : Bool :=
  h.ended.isEmpty && (h.waiting.all fun job => deadline ≤ job.deadline) && match h.running with
    | some ⟨job, .writing ..⟩ | some ⟨job, .asking _⟩ => deadline ≤ job.deadline
    | some ⟨_, .answered _⟩ => false
    | some ⟨_, .stalled _⟩ | none => true

end Holder

end SerialBroker
