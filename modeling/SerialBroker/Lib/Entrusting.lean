import Mathlib.Data.List.Basic
import Mathlib.Data.List.Pairwise
import Mathlib.Logic.Function.Basic
import Mathlib.Logic.Relation

/-!
# A task that is begun at most once

An issuer has a task done by one of several servers, of which any may fail, be slow, or turn the
task back, and the issuer may offer it to each any number of times. A server that is about to begin
asks; the issuer's yes marks the task as started in the server's term, and it says yes only to the
term it has addressed the task to. A result that says that the task was not begun takes the mark
away again. What is on its way between two parties arrives in order or is lost.

`Step` is one thing that happens, and `Sound` the invariant: in every run the task is begun at most
once, it is done from its first part to its last without a gap or a repetition, and a result that
says that it was not begun is true for good. Two things are asked of a run: a yes is taken for the
question it answers only, and a server forgets no result that the issuer still waits for.
-/

namespace Entrusting

variable {Server Term Task Outcome : Type*}

/-- What the parties know of tasks and outcomes. -/
structure Rules (Task Outcome : Type*) where
  size : Task → ℕ
  /-- The outcome of a task that is done. -/
  success : Outcome
  /-- The outcomes that say that the task was not begun. -/
  unbegun : Outcome → Prop
  /-- Those after which the issuer offers the task again. -/
  handsBack : Outcome → Prop
  unbegun_of_handsBack : ∀ o, handsBack o → unbegun o
  begun_success : ¬ unbegun success

/-- How far a server has got with the task. -/
inductive Stage (Outcome : Type*)
  | waiting
  | asking (question : ℕ)
  | answered (isApproved : Bool)
  | working (done : ℕ)
  | ended (outcome : Outcome)

structure Job (Task Outcome : Type*) where
  task : Task
  stage : Stage Outcome

/-- What a server has of the task in its term: the job, or the outcome it remembers. -/
structure Desk (Term Task Outcome : Type*) where
  term : Term
  job : Option (Job Task Outcome)
  recorded : Option Outcome
  nextQuestion : ℕ

/-- What is on its way from a server to the issuer. -/
inductive Report (Term Outcome : Type*)
  | question (term : Term) (number : ℕ)
  | result (term : Term) (outcome : Outcome)

def Report.term : Report Term Outcome → Term
  | .question term _ | .result term _ => term

/-- What is on its way from the issuer to a server. -/
inductive Letter (Term Task : Type*)
  | offer (task : Task)
  | answer (term : Term) (question : ℕ) (isApproved : Bool)

/-- What the issuer keeps while it waits for the outcome. -/
structure Marks (Term : Type*) where
  started : Option Term
  addressed : Option Term

/-- A part of the task that was done: in which term, from where, and how much. -/
structure Part (Term : Type*) where
  term : Term
  start : ℕ
  size : ℕ

@[ext] structure State (Server Term Task Outcome : Type*) where
  task : Option Task
  pending : Option (Marks Term)
  desks : Server → Option (Desk Term Task Outcome)
  reports : Server → List (Report Term Outcome)
  letters : Server → List (Letter Term Task)
  begun : List Term
  parts : List (Part Term)
  settled : List Outcome

/-- The parts follow each other without a gap from one place to another. -/
def Spans : List (Part Term) → ℕ → ℕ → Prop
  | [], start, stop => start = stop
  | part :: parts, start, stop => part.start = start ∧ Spans parts (start + part.size) stop

theorem Spans.concat {parts : List (Part Term)} {start stop : ℕ} (h : Spans parts start stop)
    (term : Term) (n : ℕ) :
    Spans (parts ++ [⟨term, stop, n⟩]) start (stop + n) := by
  induction parts generalizing start with
  | nil =>
    obtain rfl : start = stop := h
    exact ⟨rfl, rfl⟩
  | cons part parts ih => exact ⟨h.1, ih h.2⟩

/-- Whether nothing can keep the server from beginning: it has been told yes, or the yes to its
question is on its way. -/
def Desk.MayBegin (d : Desk Term Task Outcome) (letters : List (Letter Term Task)) : Prop :=
  ∃ task, d.job = some ⟨task, .answered true⟩ ∨ ∃ q, d.job = some ⟨task, .asking q⟩ ∧
    .answer d.term q true ∈ letters

/-- Whether the server has begun: it is at work, or it has or remembers an outcome that says so. -/
def Desk.HasBegun (R : Rules Task Outcome) (d : Desk Term Task Outcome) : Prop :=
  (∃ task n, d.job = some ⟨task, .working n⟩) ∨
    (∃ task o, d.job = some ⟨task, .ended o⟩ ∧ ¬ R.unbegun o) ∨
    d.job = none ∧ ∃ o, d.recorded = some o ∧ ¬ R.unbegun o

def Desk.withStage (d : Desk Term Task Outcome) (task : Task) (stage : Stage Outcome) :
    Desk Term Task Outcome :=
  { d with job := some ⟨task, stage⟩ }

/-- A term's server with nothing to do. -/
def Desk.fresh (term : Term) : Desk Term Task Outcome := ⟨term, none, none, 0⟩

namespace State

variable (R : Rules Task Outcome) {v v' : State Server Term Task Outcome} {s : Server}
  {d d' : Desk Term Task Outcome}
  {o : Outcome} {m : Marks Term} {task : Task} {T : Term} {q : ℕ}

def setDesk [DecidableEq Server] (v : State Server Term Task Outcome) (s : Server)
    (d : Desk Term Task Outcome) : State Server Term Task Outcome :=
  { v with desks := Function.update v.desks s (some d) }

/-- What a server may do at once: at its desk, to the issuer, and to the task. -/
def serve [DecidableEq Server] (v : State Server Term Task Outcome) (s : Server)
    (d : Desk Term Task Outcome)
    (posted : List (Report Term Outcome)) (begun : List Term) (parts : List (Part Term)) :
    State Server Term Task Outcome :=
  { v.setDesk s d with
    reports := Function.update v.reports s (v.reports s ++ posted)
    begun := v.begun ++ begun
    parts := v.parts ++ parts }

def settle (v : State Server Term Task Outcome) (o : Outcome) : State Server Term Task Outcome :=
  { v with pending := none, settled := v.settled ++ [o] }

/-- What an issuer may hear of the outcome in a term: a result that is on its way, or one it sees on
its own server. -/
def Tells (v : State Server Term Task Outcome) (T : Term) (o : Outcome) : Prop :=
  ∃ s, .result T o ∈ v.reports s ∨ ∃ d task, v.desks s = some d ∧ d.term = T ∧
    d.job = some ⟨task, .ended o⟩

/-- One thing that happens. -/
inductive Step [DecidableEq Server] (v : State Server Term Task Outcome) :
    State Server Term Task Outcome → Prop
  | loses (reports : Server → List (Report Term Outcome))
      (letters : Server → List (Letter Term Task))
      (hreports : ∀ s, (reports s).Sublist (v.reports s))
      (hletters : ∀ s, (letters s).Sublist (v.letters s)) :
      Step v { v with reports, letters }
  | dies : Step v { v with pending := none }
  | issues (task : Task) (hnone : v.task = none) :
      Step v { v with task := some task, pending := some ⟨none, none⟩ }
  | addresses (m : Marks Term) (hpending : v.pending = some m) (hstarted : m.started = none)
      (addressed : Option Term) :
      Step v { v with pending := some { m with addressed } }
  | offers (task : Task) (htask : v.task = some task) (letters : Server → List (Letter Term Task))
      (hletters : ∀ s, letters s = v.letters s ∨ letters s = v.letters s ++ [.offer task]) :
      Step v { v with letters }
  | rejects (m : Marks Term) (hpending : v.pending = some m) (o : Outcome) (hfailed : o ≠ R.success)
      (hstarted : R.unbegun o → m.started = none) : Step v (v.settle o)
  | recalls (m : Marks Term) (hpending : v.pending = some m) (hstarted : m.started = none)
      (s : Server) (d : Desk Term Task Outcome)
      (hdesk : v.desks s = some d) (o : Outcome) (hrecorded : d.recorded = some o) :
      Step v (v.settle o)
  | hears (m : Marks Term) (hpending : v.pending = some m) (T : Term)
      (haddressed : m.addressed = some T) (o : Outcome) (htells : v.Tells T o) :
      Step v (v.settle o)
  | takesBack (m : Marks Term) (hpending : v.pending = some m) (T : Term)
      (haddressed : m.addressed = some T) (o : Outcome)
      (htells : v.Tells T o) (hback : R.handsBack o) :
      Step v { v with pending := some { m with started := none } }
  | admits (s : Server) (d : Desk Term Task Outcome) (hdesk : v.desks s = some d)
      (hjob : d.job = none) (hrecorded : d.recorded = none)
      (task : Task) (htask : v.task = some task ∨ .offer task ∈ v.letters s) :
      Step v (v.setDesk s (d.withStage task .waiting))
  | posts (s : Server) (d : Desk Term Task Outcome) (hdesk : v.desks s = some d) (o : Outcome)
      (hwhy : (∃ task, d.job = some ⟨task, .ended o⟩) ∨
        d.job = none ∧ (d.recorded = some o ∨ d.recorded = none ∧ R.unbegun o)) :
      Step v { v with reports := Function.update v.reports s (v.reports s ++ [.result d.term o]) }
  | approves (m : Marks Term) (hpending : v.pending = some m) (s : Server) (T : Term)
      (haddressed : m.addressed = some T) (q : ℕ)
      (rest : List (Report Term Outcome)) (hreports : v.reports s = .question T q :: rest) :
      Step v { v with
        pending := some { m with started := m.started.or (some T) }
        reports := Function.update v.reports s rest
        letters := Function.update v.letters s (v.letters s ++ [.answer T q true]) }
  | refuses (s : Server) (T : Term) (q : ℕ) (hreport : .question T q ∈ v.reports s) :
      Step v { v with letters := Function.update v.letters s (v.letters s ++ [.answer T q false]) }
  | takesAnswer (s : Server) (d : Desk Term Task Outcome) (hdesk : v.desks s = some d)
    (task : Task) (q : ℕ)
      (hjob : d.job = some ⟨task, .asking q⟩) (isApproved : Bool) (hletter : isApproved = true →
        .answer d.term q true ∈ v.letters s) :
      Step v (v.setDesk s (d.withStage task (.answered isApproved)))
  | turnsBack (s : Server) (d : Desk Term Task Outcome) (hdesk : v.desks s = some d) (task : Task)
    (stage : Stage Outcome)
      (hjob : d.job = some ⟨task, stage⟩) (hstage : stage = .waiting ∨
        ∃ isApproved, stage = .answered isApproved) (o : Outcome)
      (hunbegun : R.unbegun o) : Step v (v.setDesk s (d.withStage task (.ended o)))
  | asks (s : Server) (d : Desk Term Task Outcome) (hdesk : v.desks s = some d) (task : Task)
    (hjob : d.job = some ⟨task, .waiting⟩) :
      Step v { v.setDesk s
        { d.withStage task (.asking d.nextQuestion) with nextQuestion := d.nextQuestion + 1 } with
        reports := Function.update v.reports s (v.reports s ++ [.question d.term d.nextQuestion]) }
  | begins (s : Server) (d : Desk Term Task Outcome) (hdesk : v.desks s = some d) (task : Task)
      (hjob : d.job = some ⟨task, .answered true⟩) :
      Step v { v.setDesk s (d.withStage task (.working 0)) with begun := v.begun ++ [d.term] }
  | beginsOwn (m : Marks Term) (hpending : v.pending = some m) (s : Server)
    (d : Desk Term Task Outcome) (hdesk : v.desks s = some d)
      (haddressed : m.addressed = some d.term) (hsilent : v.reports s = []) (task : Task)
        (hjob : d.job = some ⟨task, .waiting⟩) :
      Step v { v.setDesk s (d.withStage task (.working 0)) with
        pending := some { m with started := m.started.or (some d.term) }
        begun := v.begun ++ [d.term] }
  | works (s : Server) (d : Desk Term Task Outcome) (hdesk : v.desks s = some d)
    (task : Task) (done n : ℕ)
      (hjob : d.job = some ⟨task, .working done⟩) (hsize : n ≤ R.size task - done)
        (stage : Stage Outcome)
      (hstage : done + n < R.size task ∧
        (stage = .working (done + n) ∨ ∃ o, stage = .ended o ∧ ¬ R.unbegun o ∧ o ≠ R.success) ∨
        R.size task ≤ done + n ∧ stage = .ended R.success) :
      Step v { v.setDesk s (d.withStage task stage) with parts := v.parts ++ [⟨d.term, done, n⟩] }
  | fails (s : Server) (d : Desk Term Task Outcome) (hdesk : v.desks s = some d)
    (task : Task) (done : ℕ)
      (hjob : d.job = some ⟨task, .working done⟩) (o : Outcome) (hbegun : ¬ R.unbegun o)
        (hfailed : o ≠ R.success) :
      Step v (v.setDesk s (d.withStage task (.ended o)))
  | leaves (s : Server) (d : Desk Term Task Outcome) (hdesk : v.desks s = some d) (task : Task)
    (o : Outcome)
      (hjob : d.job = some ⟨task, .ended o⟩) (recorded : Option Outcome)
      (hrecorded : R.handsBack o ∧ recorded = d.recorded ∨ ¬ R.handsBack o ∧ recorded = some o) :
      Step v (v.setDesk s { d with job := none, recorded })
  | forgets (hpending : v.pending = none) (hissued : v.task ≠ none) (s : Server)
    (d : Desk Term Task Outcome) (hdesk : v.desks s = some d) :
      Step v (v.setDesk s { d with recorded := none })
  | opens (s : Server) (hnone : v.desks s = none) (T : Term) (hfresh : ∀ s d, v.desks s = some d →
    d.term ≠ T) :
      Step v (v.setDesk s (.fresh T))
  | numbers (s : Server) (d : Desk Term Task Outcome) (hdesk : v.desks s = some d) (n : ℕ)
    (hn : d.nextQuestion ≤ n) :
      Step v (v.setDesk s { d with nextQuestion := n })

abbrev Steps [DecidableEq Server] (R : Rules Task Outcome) :
    State Server Term Task Outcome → State Server Term Task Outcome → Prop :=
  Relation.ReflTransGen (Step R)

/-! ### the invariant -/

/-- The whole task is done, and no server is at it. -/
def Done (v : State Server Term Task Outcome) : Prop :=
  v.begun ≠ [] ∧ (∃ task, v.task = some task ∧ Spans v.parts 0 (R.size task)) ∧
    ∀ s d, v.desks s = some d → ∀ task n, d.job ≠ some ⟨task, .working n⟩

/-- No server has begun, and nothing lets one begin. -/
def Untouched (v : State Server Term Task Outcome) : Prop :=
  v.begun = [] ∧ ∀ s d, v.desks s = some d → ¬ d.MayBegin (v.letters s)

/-- What the servers and the mail say of each other. -/
structure Orderly (v : State Server Term Task Outcome) : Prop where
  tasks : (∀ s d, v.desks s = some d → ∀ job, d.job = some job → v.task = some job.task) ∧
    ∀ s task, .offer task ∈ v.letters s → v.task = some task
  terms : ∀ s s' d d', v.desks s = some d → v.desks s' = some d' → d.term = d'.term → s = s'
  reports : ∀ s, ∀ report ∈ v.reports s, ∃ d, v.desks s = some d ∧ report.term = d.term ∧
    ∀ T q, report = .question T q → q < d.nextQuestion
  letters : ∀ s T q b, .answer T q b ∈ v.letters s →
    ∃ d, v.desks s = some d ∧ T = d.term ∧ q < d.nextQuestion
  asked : ∀ s d task q, v.desks s = some d → d.job = some ⟨task, .asking q⟩ → q < d.nextQuestion
  /-- A question that is on its way before a result is one the server does not ask any more. -/
  order : ∀ s d, v.desks s = some d → (v.reports s).Pairwise fun a b =>
    ∀ T T' q o, a = .question T q → b = .result T' o → ∀ task, d.job ≠ some ⟨task, .asking q⟩

/-- What holds of a task, its issuer and the servers at every moment. -/
structure Sound (v : State Server Term Task Outcome) : Prop extends Orderly v where
  unissued : v.task = none → v.pending = none ∧ v.begun = []
  marks : ∀ m T, v.pending = some m → m.started = some T → m.addressed = some T
  entrusted : ∀ m s d, v.pending = some m → v.desks s = some d → d.MayBegin (v.letters s) →
    m.started = some d.term
  started : ∀ m T, v.pending = some m → T ∈ v.begun → m.started = some T
  fresh : ∀ s d, v.desks s = some d → d.MayBegin (v.letters s) → v.begun = []
  alone : ∀ s s' d d', v.desks s = some d → v.desks s' = some d' → d.MayBegin (v.letters s) →
    d'.MayBegin (v.letters s') → s = s'
  once : v.begun.length ≤ 1
  hosts : ∀ T ∈ v.begun, ∃ s d, v.desks s = some d ∧ d.term = T
  kept : v.pending ≠ none → ∀ s d, v.desks s = some d → d.term ∈ v.begun → d.HasBegun R
  returned : v.pending ≠ none → ∀ s d T o, v.desks s = some d → .result T o ∈ v.reports s →
    R.unbegun o →
    ¬ d.MayBegin (v.letters s) ∧ d.term ∉ v.begun
  settled : v.settled.length ≤ 1 ∧ (v.settled ≠ [] → v.pending = none ∧ v.task ≠ none)
  nonstart : ∀ o ∈ v.settled, R.unbegun o → v.Untouched
  working : ∀ s d task n, v.desks s = some d → d.job = some ⟨task, .working n⟩ →
    d.term ∈ v.begun ∧ Spans v.parts 0 n ∧ n ≤ R.size task
  parts : (∀ part ∈ v.parts, part.term ∈ v.begun) ∧ ∃ n, Spans v.parts 0 n ∧
    ∀ task, v.task = some task → n ≤ R.size task
  success : (∃ s d, v.desks s = some d ∧
    ((∃ task, d.job = some ⟨task, .ended R.success⟩) ∨ d.recorded = some R.success)) ∨
    (∃ s T, .result T R.success ∈ v.reports s) ∨ R.success ∈ v.settled → v.Done R

variable {R}

theorem serve_nil [DecidableEq Server] (v : State Server Term Task Outcome) (s : Server)
    (d : Desk Term Task Outcome) :
    v.serve s d [] [] [] = v.setDesk s d := by
  simp [serve, setDesk]

theorem serve_serve [DecidableEq Server] (v : State Server Term Task Outcome) (s : Server)
    (d d' : Desk Term Task Outcome)
    (posted posted' : List (Report Term Outcome)) (begun begun' : List Term)
    (parts parts' : List (Part Term)) :
    (v.serve s d posted begun parts).serve s d' posted' begun' parts' = v.serve s d'
    (posted ++ posted') (begun ++ begun') (parts ++ parts') := by
  simp [serve, setDesk]

theorem setDesk_self [DecidableEq Server] (hdesk : v.desks s = some d) : v.setDesk s d = v := by
  simp [setDesk, ← hdesk]

theorem setDesk_eq_some [DecidableEq Server] {s' : Server} {d₁ : Desk Term Task Outcome} :
    (v.setDesk s d).desks s' = some d₁ ↔ s' = s ∧ d = d₁ ∨ s' ≠ s ∧ v.desks s' = some d₁ := by
  simp only [setDesk, Function.update_apply]
  by_cases heq : s' = s
  · simp [heq]
  · simp [heq]

/-- A desk that is at no question and has no yes cannot begin. -/
theorem not_mayBegin {letters : List (Letter Term Task)}
    (hanswered : ∀ task, d.job ≠ some ⟨task, .answered true⟩)
    (hasking : ∀ task q, d.job ≠ some ⟨task, .asking q⟩) : ¬ d.MayBegin letters := by
  rintro ⟨task, hjob | ⟨q, hjob, -⟩⟩
  · exact hanswered task hjob
  · exact hasking task q hjob

theorem Done.setDesk [DecidableEq Server] (h : v.Done R)
    (hidle : ∀ task n, d'.job ≠ some ⟨task, .working n⟩) : (v.setDesk s d').Done R :=
  ⟨h.1, h.2.1, fun s' d₁ hdesk task n hjob => by
    obtain ⟨-, rfl⟩ | ⟨-, hdesk⟩ := setDesk_eq_some.mp hdesk
    · exact hidle task n hjob
    · exact h.2.2 s' d₁ hdesk task n hjob⟩

/-- Who has not marked the task as started has not let it begin. -/
theorem Sound.untouched_of_unstarted (hv : v.Sound R) (hpending : v.pending = some m)
    (hstarted : m.started = none) : v.Untouched := by
  constructor
  · refine List.eq_nil_iff_forall_not_mem.mpr fun T hT => ?_
    rw [hv.started m T hpending hT] at hstarted
    cases hstarted
  · intro s d hdesk hmay
    rw [hv.entrusted m s d hpending hdesk hmay] at hstarted
    cases hstarted

/-- What may still happen to a task happens in the term it is addressed to. -/
theorem Sound.term_of_mayBegin (hv : v.Sound R) (hpending : v.pending = some m)
    (haddressed : m.addressed = some T) (hdesk : v.desks s = some d)
    (hmay : d.MayBegin (v.letters s)) : d.term = T := by
  have hmarks := hv.marks m d.term hpending (hv.entrusted m s d hpending hdesk hmay)
  rw [haddressed] at hmarks
  exact (Option.some.inj hmarks).symm

theorem Sound.term_of_begun (hv : v.Sound R) (hpending : v.pending = some m)
    (haddressed : m.addressed = some T) {T' : Term} (hbegun : T' ∈ v.begun) :
    T' = T := by
  have hmarks := hv.marks m T' hpending (hv.started m T' hpending hbegun)
  rw [haddressed] at hmarks
  exact (Option.some.inj hmarks).symm

theorem Sound.begun_unique (hv : v.Sound R) {T T' : Term} (h : T ∈ v.begun) (h' : T' ∈ v.begun) :
    T = T' := by
  have honce := hv.once
  cases hbegun : v.begun with
  | nil =>
    rw [hbegun] at h
    cases h
  | cons T₀ rest =>
    rw [hbegun, List.length_cons] at honce
    obtain rfl : rest = [] := List.eq_nil_of_length_eq_zero (by omega)
    rw [hbegun, List.mem_singleton] at h h'
    exact h.trans h'.symm

theorem Sound.parts_of_unbegun (hv : v.Sound R) (hbegun : v.begun = []) : v.parts = [] :=
  List.eq_nil_iff_forall_not_mem.mpr fun part hpart => by
    have hmem := hv.parts.1 part hpart
    rw [hbegun] at hmem
    cases hmem

/-- A server whose job is at this stage has not begun it. -/
theorem Desk.not_hasBegun {stage : Stage Outcome} (hjob : d.job = some ⟨task, stage⟩)
    (hstage : (∀ n, stage ≠ .working n) ∧ ∀ o, stage = .ended o → R.unbegun o) :
    ¬ d.HasBegun R := by
  rintro (⟨task', n, hjob'⟩ | ⟨task', o, hjob', hbegun⟩ | ⟨hnone, -⟩)
  · rw [hjob] at hjob'
    exact hstage.1 n (congrArg Job.stage (Option.some.inj hjob'))
  · rw [hjob] at hjob'
    exact hbegun (hstage.2 o (congrArg Job.stage (Option.some.inj hjob')))
  · rw [hjob] at hnone
    cases hnone

/-- A result that says that the task was not begun is true. -/
theorem Sound.untouched_of_tells (hv : v.Sound R) (hpending : v.pending = some m)
    (haddressed : m.addressed = some T)
    (htells : v.Tells T o) (hunbegun : R.unbegun o) : v.Untouched := by
  have hsome : v.pending ≠ none := by
    rw [hpending]
    simp
  obtain ⟨s, hreport | ⟨d, task, hdesk, hterm, hjob⟩⟩ := htells
  · obtain ⟨d, hdesk, hterm, -⟩ := hv.reports s _ hreport
    obtain ⟨hmay, hbegun⟩ := hv.returned hsome s d T o hdesk hreport hunbegun
    refine ⟨List.eq_nil_iff_forall_not_mem.mpr fun T' hT' => hbegun ?_,
      fun s' d' hdesk' hmay' => hmay ?_⟩
    · have hT : T = d.term := hterm
      rw [← hT, ← hv.term_of_begun hpending haddressed hT']
      exact hT'
    · have hterm' : d'.term = d.term :=
        (hv.term_of_mayBegin hpending haddressed hdesk' hmay').trans hterm
      obtain rfl := hv.terms s' s d' d hdesk' hdesk hterm'
      rw [hdesk] at hdesk'
      exact Option.some.inj hdesk' ▸ hmay'
  · refine ⟨List.eq_nil_iff_forall_not_mem.mpr fun T' hT' => ?_, fun s' d' hdesk' hmay' => ?_⟩
    · rw [hv.term_of_begun hpending haddressed hT', ← hterm] at hT'
      refine Desk.not_hasBegun hjob ⟨fun n => by simp,
        fun o' heq => ?_⟩ (hv.kept hsome s d hdesk hT')
      exact Stage.ended.inj heq ▸ hunbegun
    · have hterm' : d'.term = d.term :=
        (hv.term_of_mayBegin hpending haddressed hdesk' hmay').trans hterm.symm
      obtain rfl := hv.terms s' s d' d hdesk' hdesk hterm'
      rw [hdesk] at hdesk'
      obtain rfl := Option.some.inj hdesk'
      exact not_mayBegin (by simp [hjob]) (by simp [hjob]) hmay'

theorem Sound.done_of_tells (hv : v.Sound R) (htells : v.Tells T R.success) : v.Done R := by
  obtain ⟨s, hreport | ⟨d, task, hdesk, -, hjob⟩⟩ := htells
  · exact hv.success (Or.inr (Or.inl ⟨s, T, hreport⟩))
  · exact hv.success (Or.inl ⟨s, d, hdesk, Or.inl ⟨task, hjob⟩⟩)

/-! ### what each step keeps -/

theorem init_sound (v : State Server Term Task Outcome) (htask : v.task = none)
    (hpending : v.pending = none) (hdesks : ∀ s, v.desks s = none)
    (hreports : ∀ s, v.reports s = []) (hletters : ∀ s, v.letters s = []) (hbegun : v.begun = [])
    (hparts : v.parts = [])
    (hsettled : v.settled = []) : v.Sound R where
  unissued _ := ⟨hpending, hbegun⟩
  tasks := ⟨fun s d h => by simp [hdesks] at h, fun s task h => by simp [hletters] at h⟩
  terms s s' d d' h := by simp [hdesks] at h
  reports s report h := by simp [hreports] at h
  letters s T q b h := by simp [hletters] at h
  asked s d task q h := by simp [hdesks] at h
  order s d h := by simp [hdesks] at h
  marks m T h := by simp [hpending] at h
  entrusted m s d h := by simp [hpending] at h
  started m T h := by simp [hpending] at h
  fresh s d h := by simp [hdesks] at h
  alone s s' d d' h := by simp [hdesks] at h
  once := by simp [hbegun]
  hosts T h := by simp [hbegun] at h
  kept h := absurd hpending h
  returned h := absurd hpending h
  settled := ⟨by simp [hsettled], fun h => absurd hsettled h⟩
  nonstart o h := by simp [hsettled] at h
  working s d task n h := by simp [hdesks] at h
  parts := ⟨fun part h => by simp [hparts] at h, 0, by simp [hparts, Spans],
    fun task h => by simp [htask] at h⟩
  success h := by simp [hdesks, hreports, hsettled] at h

/-- The issuer has its outcome. -/
theorem Sound.settle (hv : v.Sound R) (hpending : v.pending = some m)
    (hunbegun : R.unbegun o → v.Untouched)
    (hdone : o = R.success → v.Done R) : (v.settle o).Sound R := by
  have hsome : v.pending ≠ none := by
    rw [hpending]
    simp
  have hnone : v.settled = [] := by
    by_contra hsettled
    exact hsome (hv.settled.2 hsettled).1
  have htask : v.task ≠ none := fun htask => hsome (hv.unissued htask).1
  exact { hv with
    unissued := fun h => absurd h htask
    marks := fun m T h => by cases h
    entrusted := fun m s d h => by cases h
    started := fun m T h => by cases h
    kept := fun h => absurd rfl h
    returned := fun h => absurd rfl h
    settled := ⟨by simp [State.settle, hnone], fun _ => ⟨rfl, htask⟩⟩
    nonstart := fun o' ho' hunbegun' => by
      simp only [State.settle, hnone, List.nil_append, List.mem_singleton] at ho'
      exact hunbegun (ho' ▸ hunbegun')
    success := fun h => by
      obtain h | h | h := h
      · exact hv.success (Or.inl h)
      · exact hv.success (Or.inr (Or.inl h))
      · simp only [State.settle, hnone, List.nil_append, List.mem_singleton] at h
        exact hdone h.symm }

theorem MayBegin.mono {letters letters' : List (Letter Term Task)} (h : d.MayBegin letters)
    (hsub : ∀ T q, .answer T q true ∈ letters → .answer T q true ∈ letters') :
    d.MayBegin letters' :=
  h.imp fun _ h => h.imp_right fun ⟨q, hjob, hmem⟩ => ⟨q, hjob, hsub _ q hmem⟩

/-- What is on its way gets lost, and the issuer writes what lets nobody begin. -/
theorem Sound.withMail (hv : v.Sound R) {reports : Server → List (Report Term Outcome)}
    {letters : Server → List (Letter Term Task)}
    (hreports : ∀ s, (reports s).Sublist (v.reports s))
    (hletters : ∀ s, ∀ letter ∈ letters s, letter ∈ v.letters s ∨
      (∃ task, letter = .offer task ∧ v.task = some task) ∨
        ∃ d q, letter = .answer d.term q false ∧ v.desks s = some d ∧ q < d.nextQuestion) :
    ({ v with reports, letters } : State Server Term Task Outcome).Sound R := by
  have hyes : ∀ s T q, .answer T q true ∈ letters s → .answer T q true ∈ v.letters s :=
      fun s T q hmem => by
    obtain hmem | ⟨_, heq, -⟩ | ⟨_, _, heq, -⟩ := hletters s _ hmem
    · exact hmem
    · cases heq
    · cases heq
  have hmay : ∀ s (d : Desk Term Task Outcome), d.MayBegin (letters s) → d.MayBegin (v.letters s) :=
    fun s d h => MayBegin.mono h (hyes s)
  exact
    { hv with
      tasks := ⟨hv.tasks.1, fun s task hmem => by
        obtain hmem | ⟨_, heq, htask⟩ | ⟨_, _, heq, -⟩ := hletters s _ hmem
        · exact hv.tasks.2 s task hmem
        · rw [Letter.offer.inj heq]
          exact htask
        · cases heq⟩
      reports := fun s report hmem => hv.reports s report ((hreports s).subset hmem)
      letters := fun s T q b hmem => by
        obtain hmem | ⟨_, heq, -⟩ | ⟨d, q', heq, hdesk, hq⟩ := hletters s _ hmem
        · exact hv.letters s T q b hmem
        · cases heq
        · obtain ⟨hT, rfl, -⟩ := Letter.answer.inj heq
          exact ⟨d, hdesk, hT, hq⟩
      order := fun s d hdesk => (hv.order s d hdesk).sublist (hreports s)
      entrusted := fun m s d hpending hdesk h => hv.entrusted m s d hpending hdesk (hmay s d h)
      fresh := fun s d hdesk h => hv.fresh s d hdesk (hmay s d h)
      alone := fun s s' d d' hdesk hdesk' h h' =>
        hv.alone s s' d d' hdesk hdesk' (hmay s d h) (hmay s' d' h')
      returned := fun hpending s d T o hdesk hmem hunbegun => by
        obtain ⟨hnot, hbegun⟩ :=
          hv.returned hpending s d T o hdesk ((hreports s).subset hmem) hunbegun
        exact ⟨fun h => hnot (hmay s d h), hbegun⟩
      nonstart := fun o ho hunbegun =>
        ⟨(hv.nonstart o ho hunbegun).1, fun s d hdesk h =>
          (hv.nonstart o ho hunbegun).2 s d hdesk (hmay s d h)⟩
      success := fun h =>
        hv.success (h.imp_right (Or.imp_left fun ⟨s, T, hmem⟩ =>
          ⟨s, T, (hreports s).subset hmem⟩)) }

/-- The issuer waits no more. -/
theorem Sound.die (hv : v.Sound R) :
    ({ v with pending := none } : State Server Term Task Outcome).Sound R :=
  { hv with
    unissued := fun h => ⟨rfl, (hv.unissued h).2⟩
    marks := fun m T h => by cases h
    entrusted := fun m s d h => by cases h
    started := fun m T h => by cases h
    kept := fun h => absurd rfl h
    returned := fun h => absurd rfl h
    settled := ⟨hv.settled.1, fun h => ⟨rfl, (hv.settled.2 h).2⟩⟩ }

/-- Before it is issued nobody has the task, or mail about it. -/
theorem Sound.issue (hv : v.Sound R) (hnone : v.task = none) (task : Task) :
    ({ v with task := some task, pending := some ⟨none, none⟩ } :
      State Server Term Task Outcome).Sound R := by
  obtain ⟨-, hbegun⟩ := hv.unissued hnone
  have hunbegun : ∀ {T : Term}, T ∉ v.begun := fun {T} hT => by
    rw [hbegun] at hT
    cases hT
  have hjobs : ∀ s d, v.desks s = some d → d.job = none := fun s d hdesk => by
    by_contra hjob
    obtain ⟨job, hjob⟩ := Option.ne_none_iff_exists'.mp hjob
    rw [hv.tasks.1 s d hdesk job hjob] at hnone
    cases hnone
  have hidle : ∀ s d, v.desks s = some d → ¬ d.MayBegin (v.letters s) := fun s d hdesk =>
    not_mayBegin (by simp [hjobs s d hdesk]) (by simp [hjobs s d hdesk])
  exact { hv with
    tasks := by
      refine ⟨fun s d hdesk job hjob => ?_, fun s task hmem => ?_⟩
      · rw [hjobs s d hdesk] at hjob
        cases hjob
      · rw [hv.tasks.2 s task hmem] at hnone
        cases hnone
    unissued := fun h => by cases h
    marks := fun m T hm hstarted => by
      obtain rfl := Option.some.inj hm
      cases hstarted
    entrusted := fun m s d _ hdesk hmay => absurd hmay (hidle s d hdesk)
    started := fun m T _ hT => absurd hT hunbegun
    kept := fun _ s d _ hT => absurd hT hunbegun
    returned := fun _ s d T o hdesk _ _ => ⟨hidle s d hdesk, hunbegun⟩
    settled := ⟨hv.settled.1, fun h => absurd hnone (hv.settled.2 h).2⟩
    working := fun s d task n hdesk hjob => by
      rw [hjobs s d hdesk] at hjob
      cases hjob
    parts := ⟨hv.parts.1, 0, by simp [hv.parts_of_unbegun hbegun, Spans], fun _ _ => Nat.zero_le _⟩
    success := fun h => absurd hbegun (hv.success h).1 }

/-- The issuer marks the task anew, in a way that agrees with what has begun or may begin. -/
theorem Sound.mark (hv : v.Sound R) (hpending : v.pending = some m) (m' : Marks Term)
    (hmarks : ∀ T, m'.started = some T → m'.addressed = some T)
    (hentrusted : ∀ s d, v.desks s = some d → d.MayBegin (v.letters s) → m'.started = some d.term)
    (hstarted : ∀ T ∈ v.begun, m'.started = some T) :
    ({ v with pending := some m' } : State Server Term Task Outcome).Sound R := by
  have hsome : v.pending ≠ none := Option.ne_none_iff_exists'.mpr ⟨m, hpending⟩
  exact { hv with
    unissued := fun h => absurd (hv.unissued h).1 hsome
    marks := fun m₁ T hm₁ h => by
      obtain rfl := Option.some.inj hm₁
      exact hmarks T h
    entrusted := fun m₁ s d hm₁ hdesk hmay => by
      obtain rfl := Option.some.inj hm₁
      exact hentrusted s d hdesk hmay
    started := fun m₁ T hm₁ hT => by
      obtain rfl := Option.some.inj hm₁
      exact hstarted T hT
    kept := fun _ => hv.kept hsome
    returned := fun _ => hv.returned hsome
    settled := ⟨hv.settled.1, fun h => absurd (hv.settled.2 h).1 hsome⟩ }

/-- The issuer addresses the task to another term, or to none, while none has started it. -/
theorem Sound.address (hv : v.Sound R) (hpending : v.pending = some m) (hstarted : m.started = none)
    (addressed : Option Term) :
    ({ v with pending := some { m with addressed } } : State Server Term Task Outcome).Sound R := by
  refine hv.mark hpending _ (fun T h => ?_) (fun s d => hv.entrusted m s d hpending)
    fun T hT => hv.started m T hpending hT
  have h : m.started = some T := h
  rw [hstarted] at h
  cases h

/-- What comes back unbegun is nobody's any more. -/
theorem Sound.takeBack (hv : v.Sound R) (hpending : v.pending = some m)
    (haddressed : m.addressed = some T)
    (htells : v.Tells T o) (hback : R.handsBack o) :
    ({ v with pending := some { m with started := none } } : State Server Term Task Outcome).Sound
      R := by
  obtain ⟨hbegun, hidle⟩ :=
    hv.untouched_of_tells hpending haddressed htells (R.unbegun_of_handsBack o hback)
  refine hv.mark hpending _ (fun T h => by cases h) (fun s d hdesk hmay =>
      absurd hmay (hidle s d hdesk))
    fun T hT => ?_
  rw [hbegun] at hT
  cases hT

/-- A task that is started was started in the term it is addressed to. -/
theorem Sound.started_or (hv : v.Sound R) (hpending : v.pending = some m)
    (haddressed : m.addressed = some T) : m.started.or (some T) = some T := by
  cases hstarted : m.started with
  | none => rfl
  | some T' =>
    have hmarks := hv.marks m T' hpending hstarted
    rw [haddressed] at hmarks
    exact hmarks.symm

variable [DecidableEq Server]

/-- A server goes on with the task. -/
theorem Orderly.setDesk (hv : v.Orderly) (hdesk : v.desks s = some d) (hterm : d'.term = d.term)
    (hnext : d.nextQuestion ≤ d'.nextQuestion)
    (htask : ∀ job, d'.job = some job → v.task = some job.task)
    (hasking : ∀ task q, d'.job = some ⟨task, .asking q⟩ → d.job = some ⟨task, .asking q⟩ ∨
      d.nextQuestion ≤ q ∧ q < d'.nextQuestion) :
    (v.setDesk s d').Orderly := by
  refine ⟨⟨fun s' d₁ hdesk₁ job hjob => ?_, hv.tasks.2⟩, fun s₁ s₂ d₁ d₂ h₁ h₂ heq => ?_,
    fun s' report hreport => ?_,
    fun s' T q b hletter => ?_, fun s' d₁ task q hdesk₁ hjob => ?_, fun s' d₁ hdesk₁ => ?_⟩
  · obtain ⟨-, rfl⟩ | ⟨-, hdesk₁⟩ := setDesk_eq_some.mp hdesk₁
    · exact htask job hjob
    · exact hv.tasks.1 s' d₁ hdesk₁ job hjob
  · obtain ⟨rfl, rfl⟩ | ⟨-, hold₁⟩ := setDesk_eq_some.mp h₁ <;> obtain ⟨rfl, rfl⟩ | ⟨-, hold₂⟩ :=
      setDesk_eq_some.mp h₂
    · rfl
    · exact hv.terms _ _ d d₂ hdesk hold₂ (hterm ▸ heq)
    · exact hv.terms _ _ d₁ d hold₁ hdesk (hterm ▸ heq)
    · exact hv.terms _ _ d₁ d₂ hold₁ hold₂ heq
  · obtain ⟨d₁, hdesk₁, hterm₁, hquestion⟩ := hv.reports s' report hreport
    by_cases heq : s' = s
    · subst heq
      rw [hdesk] at hdesk₁
      obtain rfl := Option.some.inj hdesk₁
      exact ⟨d', setDesk_eq_some.mpr (Or.inl ⟨rfl, rfl⟩), hterm₁.trans hterm.symm, fun T q h =>
        Nat.lt_of_lt_of_le (hquestion T q h) hnext⟩
    · exact ⟨d₁, setDesk_eq_some.mpr (Or.inr ⟨heq, hdesk₁⟩), hterm₁, hquestion⟩
  · obtain ⟨d₁, hdesk₁, hterm₁, hquestion⟩ := hv.letters s' T q b hletter
    by_cases heq : s' = s
    · subst heq
      rw [hdesk] at hdesk₁
      obtain rfl := Option.some.inj hdesk₁
      exact ⟨d', setDesk_eq_some.mpr (Or.inl ⟨rfl, rfl⟩), hterm₁.trans hterm.symm,
        Nat.lt_of_lt_of_le hquestion hnext⟩
    · exact ⟨d₁, setDesk_eq_some.mpr (Or.inr ⟨heq, hdesk₁⟩), hterm₁, hquestion⟩
  · obtain ⟨-, rfl⟩ | ⟨-, hdesk₁⟩ := setDesk_eq_some.mp hdesk₁
    · obtain hjob | ⟨-, hlt⟩ := hasking task q hjob
      · exact Nat.lt_of_lt_of_le (hv.asked s d task q hdesk hjob) hnext
      · exact hlt
    · exact hv.asked s' d₁ task q hdesk₁ hjob
  · obtain ⟨rfl, rfl⟩ | ⟨-, hdesk₁⟩ := setDesk_eq_some.mp hdesk₁
    · refine (hv.order s' d hdesk).imp_of_mem fun ha _ himp T T' q o heq hb task hjob => ?_
      obtain hjob | ⟨hle, -⟩ := hasking task q hjob
      · exact himp T T' q o heq hb task hjob
      · obtain ⟨d₁, hdesk₁, -, hquestion⟩ := hv.reports s' _ ha
        rw [hdesk] at hdesk₁
        obtain rfl := Option.some.inj hdesk₁
        exact Nat.not_le.mpr (hquestion T q heq) hle
    · exact hv.order s' d₁ hdesk₁

/-- The terms in which the task was begun are still those of servers. -/
theorem hosts_setDesk (hdesk : v.desks s = some d) (hterm : d'.term = d.term)
    (hhosts : ∃ s' d₁, v.desks s' = some d₁ ∧ d₁.term = T) :
    ∃ s' d₁, (v.setDesk s d').desks s' = some d₁ ∧ d₁.term = T := by
  obtain ⟨s', d₁, hdesk₁, hterm₁⟩ := hhosts
  by_cases heq : s' = s
  · subst heq
    rw [hdesk] at hdesk₁
    obtain rfl := Option.some.inj hdesk₁
    exact ⟨s', d', setDesk_eq_some.mpr (Or.inl ⟨rfl, rfl⟩), hterm.trans hterm₁⟩
  · exact ⟨s', d₁, setDesk_eq_some.mpr (Or.inr ⟨heq, hdesk₁⟩), hterm₁⟩

/-- A server goes on with the task without beginning it. -/
theorem Sound.goOn (hv : v.Sound R) (hdesk : v.desks s = some d)
    (horderly : (v.setDesk s d').Orderly) (hterm : d'.term = d.term)
    (hmay : d'.MayBegin (v.letters s) → d.MayBegin (v.letters s))
    (hkept : v.pending ≠ none → d.HasBegun R → d'.HasBegun R)
    (parts : List (Part Term))
    (hworking : ∀ s₁ d₁ task n, (v.setDesk s d').desks s₁ = some d₁ →
      d₁.job = some ⟨task, .working n⟩ →
      d₁.term ∈ v.begun ∧ Spans parts 0 n ∧ n ≤ R.size task)
    (hparts : (∀ part ∈ parts, part.term ∈ v.begun) ∧ ∃ n, Spans parts 0 n ∧
      ∀ task, v.task = some task → n ≤ R.size task)
    (hdone : v.Done R → ({ v.setDesk s d' with parts } : State Server Term Task Outcome).Done R)
    (hsuccess : (∃ task, d'.job = some ⟨task, .ended R.success⟩) ∨ d'.recorded = some R.success →
      ({ v.setDesk s d' with parts } : State Server Term Task Outcome).Done R) :
    ({ v.setDesk s d' with parts } : State Server Term Task Outcome).Sound R := by
  refine
    { hv with
      toOrderly := { horderly with }
      entrusted := fun m s' d₁ hpending hdesk₁ hmay₁ => ?_
      fresh := fun s' d₁ hdesk₁ hmay₁ => ?_
      alone := fun s₁ s₂ d₁ d₂ h₁ h₂ hmay₁ hmay₂ => ?_
      hosts := fun T hbegun => hosts_setDesk hdesk hterm (hv.hosts T hbegun)
      kept := fun hpending s' d₁ hdesk₁ hbegun => ?_
      returned := fun hpending s' d₁ T o hdesk₁ hreport hunbegun => ?_
      nonstart := fun o ho hunbegun => ⟨(hv.nonstart o ho hunbegun).1, fun s' d₁ hdesk₁ => ?_⟩
      working := hworking
      parts := hparts
      success := fun h => ?_ }
  · obtain ⟨rfl, rfl⟩ | ⟨-, hdesk₁⟩ := setDesk_eq_some.mp hdesk₁
    · rw [hterm]
      exact hv.entrusted m s' d hpending hdesk (hmay hmay₁)
    · exact hv.entrusted m s' d₁ hpending hdesk₁ hmay₁
  · obtain ⟨rfl, rfl⟩ | ⟨-, hdesk₁⟩ := setDesk_eq_some.mp hdesk₁
    · exact hv.fresh s' d hdesk (hmay hmay₁)
    · exact hv.fresh s' d₁ hdesk₁ hmay₁
  · obtain ⟨rfl, rfl⟩ | ⟨-, hold₁⟩ := setDesk_eq_some.mp h₁ <;> obtain ⟨rfl, rfl⟩ | ⟨-, hold₂⟩ :=
      setDesk_eq_some.mp h₂
    · rfl
    · exact hv.alone _ _ d d₂ hdesk hold₂ (hmay hmay₁) hmay₂
    · exact hv.alone _ _ d₁ d hold₁ hdesk hmay₁ (hmay hmay₂)
    · exact hv.alone _ _ d₁ d₂ hold₁ hold₂ hmay₁ hmay₂
  · obtain ⟨rfl, rfl⟩ | ⟨-, hdesk₁⟩ := setDesk_eq_some.mp hdesk₁
    · rw [hterm] at hbegun
      exact hkept hpending (hv.kept hpending s' d hdesk hbegun)
    · exact hv.kept hpending s' d₁ hdesk₁ hbegun
  · obtain ⟨rfl, rfl⟩ | ⟨-, hdesk₁⟩ := setDesk_eq_some.mp hdesk₁
    · obtain ⟨hnot, hbegun⟩ := hv.returned hpending s' d T o hdesk hreport hunbegun
      rw [hterm]
      exact ⟨fun h => hnot (hmay h), hbegun⟩
    · exact hv.returned hpending s' d₁ T o hdesk₁ hreport hunbegun
  · obtain ⟨rfl, rfl⟩ | ⟨-, hdesk₁⟩ := setDesk_eq_some.mp hdesk₁
    · exact fun h => (hv.nonstart o ho hunbegun).2 s' d hdesk (hmay h)
    · exact (hv.nonstart o ho hunbegun).2 s' d₁ hdesk₁
  · obtain ⟨s', d₁, hdesk₁, h⟩ | h := h
    · obtain ⟨rfl, rfl⟩ | ⟨-, hdesk₁⟩ := setDesk_eq_some.mp hdesk₁
      · exact hsuccess h
      · exact hdone (hv.success (Or.inl ⟨s', d₁, hdesk₁, h⟩))
    · exact hdone (hv.success (Or.inr h))

/-- A server goes on with a task it is not working at. -/
theorem Sound.setDesk (hv : v.Sound R) (hdesk : v.desks s = some d) (hterm : d'.term = d.term)
    (hnext : d.nextQuestion ≤ d'.nextQuestion)
    (htask : ∀ job, d'.job = some job → v.task = some job.task)
    (hasking : ∀ task q, d'.job = some ⟨task, .asking q⟩ → d.job = some ⟨task, .asking q⟩ ∨
      d.nextQuestion ≤ q ∧ q < d'.nextQuestion)
    (hmay : d'.MayBegin (v.letters s) → d.MayBegin (v.letters s))
    (hkept : v.pending ≠ none → d.HasBegun R → d'.HasBegun R)
    (hidle : ∀ task n, d'.job = some ⟨task, .working n⟩ → d.job = some ⟨task, .working n⟩)
    (hsuccess : (∃ task, d'.job = some ⟨task, .ended R.success⟩) ∨ d'.recorded = some R.success →
      v.Done R) : (v.setDesk s d').Sound R := by
  have hdone : v.Done R → (v.setDesk s d').Done R := fun hdone =>
    hdone.setDesk fun task n hjob => hdone.2.2 s d hdesk task n (hidle task n hjob)
  refine hv.goOn hdesk (hv.toOrderly.setDesk hdesk hterm hnext htask hasking) hterm hmay hkept
      v.parts (fun s₁ d₁ task n hdesk₁ hjob => ?_) hv.parts hdone
    fun h => hdone (hsuccess h)
  obtain ⟨rfl, rfl⟩ | ⟨-, hdesk₁⟩ := setDesk_eq_some.mp hdesk₁
  · rw [hterm]
    exact hv.working s₁ d task n hdesk (hidle task n hjob)
  · exact hv.working s₁ d₁ task n hdesk₁ hjob

/-- A server tells the issuer something about its term. -/
theorem Sound.post (hv : v.Sound R) (hdesk : v.desks s = some d) {report : Report Term Outcome}
    (hterm : report.term = d.term)
    (hquestion : ∀ T q, report = .question T q → q < d.nextQuestion)
    (hresult : ∀ T o, report = .result T o → (∀ task q, d.job ≠ some ⟨task, .asking q⟩) ∧
      (o = R.success → v.Done R) ∧
      (v.pending ≠ none → R.unbegun o → ¬ d.MayBegin (v.letters s) ∧ d.term ∉ v.begun)) :
    ({ v with
    reports := Function.update v.reports s (v.reports s ++ [report]) } :
      State Server Term Task Outcome).Sound R := by
  have hmem : ∀ {s' : Server} {r : Report Term Outcome}, r ∈
      Function.update v.reports s (v.reports s ++ [report]) s' →
      r ∈ v.reports s' ∨ s' = s ∧ r = report := fun {s' r} hr => by
    rw [Function.update_apply] at hr
    split at hr
    · next heq =>
      rw [heq]
      exact (List.mem_append.mp hr).imp_right fun h => ⟨rfl, List.mem_singleton.mp h⟩
    · exact Or.inl hr
  exact
    { hv with
      reports := fun s' r hr => by
        obtain hr | ⟨rfl, rfl⟩ := hmem hr
        · exact hv.reports s' r hr
        · exact ⟨d, hdesk, hterm, hquestion⟩
      order := fun s' d₁ hdesk₁ => by
        simp only [Function.update_apply]
        split
        · next heq =>
          subst heq
          rw [hdesk] at hdesk₁
          obtain rfl := Option.some.inj hdesk₁
          refine List.pairwise_append.mpr ⟨hv.order s' d hdesk, List.pairwise_singleton _ _,
            fun a _ b hb T T' q o _ heq task => ?_⟩
          rw [List.mem_singleton.mp hb] at heq
          exact (hresult T' o heq).1 task q
        · exact hv.order s' d₁ hdesk₁
      returned := fun hpending s' d₁ T o hdesk₁ hr hunbegun => by
        obtain hr | ⟨rfl, heq⟩ := hmem hr
        · exact hv.returned hpending s' d₁ T o hdesk₁ hr hunbegun
        · rw [hdesk] at hdesk₁
          obtain rfl := Option.some.inj hdesk₁
          exact (hresult T o heq.symm).2.2 hpending hunbegun
      success := fun h => by
        obtain h | ⟨s', T, hr⟩ | h := h
        · exact hv.success (Or.inl h)
        · obtain hr | ⟨-, heq⟩ := hmem hr
          · exact hv.success (Or.inr (Or.inl ⟨s', T, hr⟩))
          · exact (hresult T R.success heq.symm).2.1 rfl
        · exact hv.success (Or.inr (Or.inr h)) }

/-- The issuer's yes to a question, which counts the task as started from then on. -/
theorem Sound.approve (hv : v.Sound R) (hpending : v.pending = some m)
    (haddressed : m.addressed = some T) {rest : List (Report Term Outcome)}
    (hreports : v.reports s = .question T q :: rest) :
    ({ v with
      pending := some { m with started := m.started.or (some T) }
      reports := Function.update v.reports s rest
      letters := Function.update v.letters s (v.letters s ++ [.answer T q true]) } :
        State Server Term Task Outcome).Sound R := by
  have hsome : v.pending ≠ none := by
    rw [hpending]
    simp
  obtain ⟨d, hdesk, hterm, hquestion⟩ :=
    hv.reports s (.question T q) (hreports ▸ List.mem_cons_self)
  obtain rfl : T = d.term := hterm
  have hq : q < d.nextQuestion := hquestion d.term q rfl
  have hmarked : m.started.or (some d.term) = some d.term := hv.started_or hpending haddressed
  have hrest : ∀ {s' : Server} {r : Report Term Outcome}, r ∈ Function.update v.reports s rest s' →
      r ∈ v.reports s' := fun {s' r} hr => by
    rw [Function.update_apply] at hr
    split at hr
    · next heq =>
      rw [heq, hreports]
      exact List.mem_cons_of_mem _ hr
    · exact hr
  have hletters : ∀ {s' : Server} {letter : Letter Term Task},
      letter ∈ Function.update v.letters s (v.letters s ++ [.answer d.term q true]) s' →
      letter ∈ v.letters s' ∨ s' = s ∧ letter = .answer d.term q true := fun {s' letter} hmem => by
    rw [Function.update_apply] at hmem
    split at hmem
    · next heq =>
      rw [heq]
      exact (List.mem_append.mp hmem).imp_right fun h => ⟨rfl, List.mem_singleton.mp h⟩
    · exact Or.inl hmem
  -- a server that may begin now could before, or asks just this question
  have hmay : ∀ {s' : Server} {d' : Desk Term Task Outcome}, v.desks s' = some d' →
      d'.MayBegin (Function.update v.letters s (v.letters s ++ [.answer d.term q true]) s') →
      d'.MayBegin (v.letters s') ∨ s' = s ∧ ∃ task, d.job = some ⟨task, .asking q⟩ :=
        fun {s' d'} hdesk' hmay => by
    obtain ⟨task, hjob | ⟨q', hjob, hmem⟩⟩ := hmay
    · exact Or.inl ⟨task, Or.inl hjob⟩
    · obtain hmem | ⟨rfl, heq⟩ := hletters hmem
      · exact Or.inl ⟨task, Or.inr ⟨q', hjob, hmem⟩⟩
      · rw [hdesk] at hdesk'
        obtain rfl := Option.some.inj hdesk'
        obtain ⟨-, rfl, -⟩ := Letter.answer.inj heq
        exact Or.inr ⟨rfl, task, hjob⟩
  have hhere : ∀ {s' : Server} {d' : Desk Term Task Outcome}, v.desks s' = some d' →
      d'.MayBegin (Function.update v.letters s (v.letters s ++ [.answer d.term q true]) s') →
        s' = s ∧ d' = d := fun {s' d'} hdesk' h => by
    have heq : s' = s := by
      obtain h | ⟨heq, -⟩ := hmay hdesk' h
      · exact hv.terms s' s d' d hdesk' hdesk (hv.term_of_mayBegin hpending haddressed hdesk' h)
      · exact heq
    subst heq
    rw [hdesk] at hdesk'
    exact ⟨rfl, (Option.some.inj hdesk').symm⟩
  have huntouched : (∃ task, d.job = some ⟨task, .asking q⟩) → v.begun = [] :=
      fun ⟨task, hjob⟩ => by
    refine List.eq_nil_iff_forall_not_mem.mpr fun T' hT' => ?_
    rw [hv.term_of_begun hpending haddressed hT'] at hT'
    exact Desk.not_hasBegun hjob ⟨by simp, by simp⟩ (hv.kept hsome s d hdesk hT')
  have hnone : v.settled = [] := by
    by_contra hsettled
    exact hsome (hv.settled.2 hsettled).1
  exact
    { hv with
      unissued := fun h => absurd (hv.unissued h).1 hsome
      tasks := ⟨hv.tasks.1, fun s' task hmem => by
        obtain hmem | ⟨-, heq⟩ := hletters hmem
        · exact hv.tasks.2 s' task hmem
        · cases heq⟩
      reports := fun s' r hr => hv.reports s' r (hrest hr)
      letters := fun s' T' q' b hmem => by
        obtain hmem | ⟨rfl, heq⟩ := hletters hmem
        · exact hv.letters s' T' q' b hmem
        · obtain ⟨rfl, rfl, -⟩ := Letter.answer.inj heq
          exact ⟨d, hdesk, rfl, hq⟩
      order := fun s' d' hdesk' => by
        simp only [Function.update_apply]
        split
        · next heq =>
          subst heq
          have horder := hv.order s' d' hdesk'
          rw [hreports] at horder
          exact (List.pairwise_cons.mp horder).2
        · exact hv.order s' d' hdesk'
      marks := fun m' T' hm' hstarted => by
        obtain rfl := Option.some.inj hm'
        rw [hmarked] at hstarted
        exact haddressed.trans hstarted
      entrusted := fun m' s' d' hm' hdesk' h => by
        obtain rfl := Option.some.inj hm'
        obtain ⟨-, rfl⟩ := hhere hdesk' h
        exact hmarked
      started := fun m' T' hm' hT' => by
        obtain rfl := Option.some.inj hm'
        rw [hv.term_of_begun hpending haddressed hT']
        exact hmarked
      fresh := fun s' d' hdesk' h => by
        obtain h | ⟨-, hasking⟩ := hmay hdesk' h
        · exact hv.fresh s' d' hdesk' h
        · exact huntouched hasking
      alone := fun s₁ s₂ d₁ d₂ hdesk₁ hdesk₂ h₁ h₂ =>
        (hhere hdesk₁ h₁).1.trans (hhere hdesk₂ h₂).1.symm
      kept := fun _ => hv.kept hsome
      returned := fun _ s' d' T' o hdesk' hr hunbegun => by
        obtain ⟨hnot, hbegun⟩ := hv.returned hsome s' d' T' o hdesk' (hrest hr) hunbegun
        refine ⟨fun h => ?_, hbegun⟩
        obtain h | ⟨rfl, task, hjob⟩ := hmay hdesk' h
        · exact hnot h
        · have horder := hv.order s' d' hdesk'
          rw [hreports] at horder
          rw [hdesk] at hdesk'
          obtain rfl := Option.some.inj hdesk'
          have hr : .result T' o ∈ Function.update v.reports s' rest s' := hr
          rw [Function.update_self] at hr
          exact (List.pairwise_cons.mp horder).1 _ hr d.term T' q o rfl rfl task hjob
      settled := ⟨hv.settled.1, fun h => absurd hnone h⟩
      nonstart := fun o ho => by
        have ho : o ∈ v.settled := ho
        rw [hnone] at ho
        cases ho
      success := fun h =>
        hv.success (h.imp_right (Or.imp_left fun ⟨s', T', hr⟩ => ⟨s', T', hrest hr⟩)) }

/-- A server begins: nobody else may, and the issuer counts the task as started in its term. -/
theorem Sound.begin (hv : v.Sound R) (hdesk : v.desks s = some d) {stage : Stage Outcome}
    (hjob : d.job = some ⟨task, stage⟩)
    (hbegun : v.begun = []) (halone : ∀ s' d', v.desks s' = some d' → d'.MayBegin (v.letters s') →
      s' = s) {pending : Option (Marks Term)}
    (hpending : ∀ m, pending = some m → v.pending ≠ none ∧ m.started = some d.term ∧
      m.addressed = some d.term)
    (hreturned : v.pending ≠ none → ∀ T o, .result T o ∈ v.reports s → ¬ R.unbegun o)
    (hnonstart : ∀ o ∈ v.settled, ¬ R.unbegun o) :
    ({ v.setDesk s (d.withStage task (.working 0)) with
    pending
    begun := v.begun ++ [d.term] } : State Server Term Task Outcome).Sound R := by
  have hparts : v.parts = [] := hv.parts_of_unbegun hbegun
  have htask : v.task = some task := hv.tasks.1 s d hdesk _ hjob
  have hsome : pending ≠ none → v.pending ≠ none := fun h => by
    obtain ⟨m, hm⟩ := Option.ne_none_iff_exists'.mp h
    exact (hpending m hm).1
  have hnobody : ∀ s' d', (v.setDesk s (d.withStage task (.working 0))).desks s' = some d' →
      ¬ d'.MayBegin (v.letters s') := by
    intro s' d' hdesk' hmay
    obtain ⟨-, rfl⟩ | ⟨hne, hdesk'⟩ := setDesk_eq_some.mp hdesk'
    · exact not_mayBegin (by simp [Desk.withStage]) (by simp [Desk.withStage]) hmay
    · exact hne (halone s' d' hdesk' hmay)
  have hundone : ¬ v.Done R := fun hdone => hdone.1 hbegun
  have hterms : ∀ {T : Term}, T ∈ v.begun ++ [d.term] → T = d.term := fun {T} hT => by
    rw [hbegun] at hT
    exact List.mem_singleton.mp hT
  have horderly : (v.setDesk s (d.withStage task (.working 0))).Orderly :=
    hv.toOrderly.setDesk hdesk rfl (Nat.le_refl _) (fun job h => Option.some.inj h ▸ htask)
      fun _ _ h => by cases Option.some.inj h
  exact
    { horderly with
      unissued := fun h => by
        have h : v.task = none := h
        rw [htask] at h
        cases h
      marks := fun m T hm hstarted => by
        obtain ⟨-, hstarted', haddressed⟩ := hpending m hm
        rw [haddressed, ← hstarted', hstarted]
      entrusted := fun m s' d' hm hdesk' hmay => absurd hmay (hnobody s' d' hdesk')
      started := fun m T hm hT => by
        rw [hterms hT]
        exact (hpending m hm).2.1
      fresh := fun s' d' hdesk' hmay => absurd hmay (hnobody s' d' hdesk')
      alone := fun s₁ s₂ d₁ d₂ h₁ h₂ hmay => absurd hmay (hnobody s₁ d₁ h₁)
      once := by simp [hbegun]
      hosts := fun T hT => by
        rw [hterms hT]
        exact hosts_setDesk hdesk rfl ⟨s, d, hdesk, rfl⟩
      kept := fun hp s' d' hdesk' hT => by
        obtain ⟨-, rfl⟩ | ⟨hne, hdesk'⟩ := setDesk_eq_some.mp hdesk'
        · exact Or.inl ⟨task, 0, rfl⟩
        · exact absurd (hv.terms s' s d' d hdesk' hdesk (hterms hT)) hne
      returned := fun hp s' d' T o hdesk' hr hunbegun => by
        refine ⟨hnobody s' d' hdesk', fun hT => ?_⟩
        obtain ⟨rfl, -⟩ | ⟨hne, hdesk'⟩ := setDesk_eq_some.mp hdesk'
        · exact hreturned (hsome hp) T o hr hunbegun
        · exact hne (hv.terms s' s d' d hdesk' hdesk (hterms hT))
      settled := ⟨hv.settled.1, fun h => ⟨by
        by_contra hp
        exact hsome hp (hv.settled.2 h).1, (hv.settled.2 h).2⟩⟩
      nonstart := fun o ho hunbegun => absurd hunbegun (hnonstart o ho)
      working := fun s' d' task' n hdesk' hjob' => by
        obtain ⟨-, rfl⟩ | ⟨hne, hdesk'⟩ := setDesk_eq_some.mp hdesk'
        · obtain ⟨rfl, hstage⟩ := Job.mk.inj (Option.some.inj hjob')
          obtain rfl := Stage.working.inj hstage
          exact ⟨List.mem_append_right _ List.mem_cons_self, by simp [hparts, Spans, State.setDesk],
            Nat.zero_le _⟩
        · have hmem := (hv.working s' d' task' n hdesk' hjob').1
          rw [hbegun] at hmem
          cases hmem
      parts := ⟨fun part hpart => by simp [State.setDesk, hparts] at hpart,
        0, by simp [State.setDesk, hparts, Spans], fun _ _ => Nat.zero_le _⟩
      success := fun h => by
        refine absurd (hv.success ?_) hundone
        refine h.imp_left fun ⟨s', d', hdesk', h⟩ => ?_
        obtain ⟨rfl, rfl⟩ | ⟨hne, hdesk'⟩ := setDesk_eq_some.mp hdesk'
        · refine ⟨s', d, hdesk, Or.inr (h.resolve_left ?_)⟩
          rintro ⟨_, hjob'⟩
          cases Option.some.inj hjob'
        · exact ⟨s', d', hdesk', h⟩ }

/-- A server does the next part of the task. -/
theorem Sound.work (hv : v.Sound R) (hdesk : v.desks s = some d) {done n : ℕ}
    (hjob : d.job = some ⟨task, .working done⟩)
    (hsize : n ≤ R.size task - done) {stage : Stage Outcome}
    (hstage : done + n < R.size task ∧
      (stage = .working (done + n) ∨ ∃ o, stage = .ended o ∧ ¬ R.unbegun o ∧ o ≠ R.success) ∨
      R.size task ≤ done + n ∧ stage = .ended R.success) :
    ({ v.setDesk s (d.withStage task stage) with
    parts := v.parts ++ [⟨d.term, done, n⟩] } : State Server Term Task Outcome).Sound R := by
  obtain ⟨hbegun, hspans, hle⟩ := hv.working s d task done hdesk hjob
  have htask : v.task = some task := hv.tasks.1 s d hdesk _ hjob
  have hspans' : Spans (v.parts ++ [⟨d.term, done, n⟩]) 0 (done + n) := hspans.concat d.term n
  have hle' : done + n ≤ R.size task := by omega
  have hnoask : ∀ {q : ℕ}, stage ≠ .asking q := fun {q} heq => by
    obtain ⟨-, rfl | ⟨o, rfl, -⟩⟩ | ⟨-, rfl⟩ := hstage <;> cases heq
  have hnoyes : ∀ {b : Bool}, stage ≠ .answered b := fun {b} heq => by
    obtain ⟨-, rfl | ⟨o, rfl, -⟩⟩ | ⟨-, rfl⟩ := hstage <;> cases heq
  -- whoever else was at work would have begun too
  have honly : ∀ {s' : Server} {d' : Desk Term Task Outcome}, s' ≠ s → v.desks s' = some d' →
      ∀ task n, d'.job ≠ some ⟨task, .working n⟩ := by
    intro s' d' hne hdesk' task' n' hjob'
    exact hne (hv.terms s' s d' d hdesk' hdesk
      (hv.begun_unique (hv.working s' d' task' n' hdesk' hjob').1 hbegun))
  have hundone : ¬ v.Done R := fun hdone => hdone.2.2 s d hdesk task done hjob
  have horderly : (v.setDesk s (d.withStage task stage)).Orderly :=
    hv.toOrderly.setDesk hdesk rfl (Nat.le_refl _) (fun job h =>
        Option.some.inj h ▸ htask) fun _ _ h =>
      absurd (congrArg Job.stage (Option.some.inj h)) hnoask
  refine hv.goOn hdesk horderly rfl (fun h =>
      absurd h (not_mayBegin (fun _ h => hnoyes (congrArg Job.stage (Option.some.inj h)))
    fun _ _ h => hnoask (congrArg Job.stage (Option.some.inj h)))) (fun _ _ => ?_) _
      (fun s' d' task' n' hdesk' hjob' => ?_)
    ⟨fun part hpart => ?_, _, hspans', fun task' htask' => ?_⟩ (fun h =>
      absurd h hundone) (fun h => ?_)
  · obtain ⟨-, rfl | ⟨o, rfl, hnot, -⟩⟩ | ⟨-, rfl⟩ := hstage
    · exact Or.inl ⟨task, done + n, rfl⟩
    · exact Or.inr (Or.inl ⟨task, o, rfl, hnot⟩)
    · exact Or.inr (Or.inl ⟨task, R.success, rfl, R.begun_success⟩)
  · obtain ⟨-, rfl⟩ | ⟨hne, hdesk'⟩ := setDesk_eq_some.mp hdesk'
    · obtain ⟨rfl, hstage'⟩ := Job.mk.inj (Option.some.inj hjob')
      obtain ⟨-, rfl | ⟨o, rfl, -⟩⟩ | ⟨-, rfl⟩ := hstage
      · obtain rfl := Stage.working.inj hstage'
        exact ⟨hbegun, hspans', hle'⟩
      · cases hstage'
      · cases hstage'
    · exact absurd hjob' (honly hne hdesk' task' n')
  · obtain hpart | hpart := List.mem_append.mp hpart
    · exact hv.parts.1 part hpart
    · rw [List.mem_singleton.mp hpart]
      exact hbegun
  · rw [htask] at htask'
    exact Option.some.inj htask' ▸ hle'
  · obtain ⟨task', h⟩ | h := h
    · obtain ⟨rfl, hstage'⟩ := Job.mk.inj (Option.some.inj h)
      obtain ⟨-, rfl | ⟨o, rfl, -, hne⟩⟩ | ⟨hend, rfl⟩ := hstage
      · cases hstage'
      · exact absurd (Stage.ended.inj hstage') hne
      · refine ⟨fun hnil => ?_, ⟨task, htask, ?_⟩, fun s' d' hdesk' task' n' hjob' => ?_⟩
        · have hnil : v.begun = [] := hnil
          rw [hnil] at hbegun
          cases hbegun
        · have heq : done + n = R.size task := Nat.le_antisymm hle' hend
          exact heq ▸ hspans'
        · obtain ⟨-, rfl⟩ | ⟨hne, hdesk'⟩ := setDesk_eq_some.mp hdesk'
          · cases congrArg Job.stage (Option.some.inj hjob')
          · exact honly hne hdesk' task' n' hjob'
    · exact absurd (hv.success (Or.inl ⟨s, d, hdesk, Or.inr h⟩)) hundone

/-- A server begins its term. -/
theorem Sound.open (hv : v.Sound R) (hnone : v.desks s = none)
    (hfresh : ∀ s d, v.desks s = some d → d.term ≠ T) :
    (v.setDesk s (.fresh T)).Sound R := by
  have hnew : ∀ {s' : Server} {d' : Desk Term Task Outcome}, (v.setDesk s (.fresh T)).desks
      s' = some d' →
      s' = s ∧ d' = .fresh T ∨ v.desks s' = some d' := fun {s' d'} hdesk' => by
    obtain ⟨rfl, rfl⟩ | ⟨-, hdesk'⟩ := setDesk_eq_some.mp hdesk'
    · exact Or.inl ⟨rfl, rfl⟩
    · exact Or.inr hdesk'
  have hold : ∀ {s' : Server} {d' : Desk Term Task Outcome}, v.desks s' = some d' →
      (v.setDesk s (.fresh T)).desks s' = some d' := by
    intro s' d' hdesk'
    refine setDesk_eq_some.mpr (Or.inr ⟨fun heq => ?_, hdesk'⟩)
    rw [heq, hnone] at hdesk'
    cases hdesk'
  have hidle : ∀ {letters : List (Letter Term Task)},
      ¬ (Desk.fresh T : Desk Term Task Outcome).MayBegin letters :=
    not_mayBegin (by simp [Desk.fresh]) (by simp [Desk.fresh])
  exact
    { hv with
      tasks := ⟨fun s' d' hdesk' job hjob => by
        obtain ⟨rfl, rfl⟩ | hdesk' := hnew hdesk'
        · cases hjob
        · exact hv.tasks.1 s' d' hdesk' job hjob, hv.tasks.2⟩
      terms := fun s₁ s₂ d₁ d₂ h₁ h₂ heq => by
        obtain ⟨rfl, rfl⟩ | hold₁ := hnew h₁ <;> obtain ⟨rfl, rfl⟩ | hold₂ := hnew h₂
        · rfl
        · exact absurd heq.symm (hfresh s₂ d₂ hold₂)
        · exact absurd heq (hfresh s₁ d₁ hold₁)
        · exact hv.terms s₁ s₂ d₁ d₂ hold₁ hold₂ heq
      reports := fun s' report hreport => by
        obtain ⟨d', hdesk', h⟩ := hv.reports s' report hreport
        exact ⟨d', hold hdesk', h⟩
      letters := fun s' T' q b hmem => by
        obtain ⟨d', hdesk', h⟩ := hv.letters s' T' q b hmem
        exact ⟨d', hold hdesk', h⟩
      asked := fun s' d' task q hdesk' hjob => by
        obtain ⟨rfl, rfl⟩ | hdesk' := hnew hdesk'
        · cases hjob
        · exact hv.asked s' d' task q hdesk' hjob
      order := fun s' d' hdesk' => by
        obtain ⟨rfl, rfl⟩ | hdesk' := hnew hdesk'
        · exact List.pairwise_of_forall fun _ _ _ _ _ _ _ _ _ h => by cases h
        · exact hv.order s' d' hdesk'
      entrusted := fun m s' d' hpending hdesk' hmay => by
        obtain ⟨rfl, rfl⟩ | hdesk' := hnew hdesk'
        · exact absurd hmay hidle
        · exact hv.entrusted m s' d' hpending hdesk' hmay
      fresh := fun s' d' hdesk' hmay => by
        obtain ⟨rfl, rfl⟩ | hdesk' := hnew hdesk'
        · exact absurd hmay hidle
        · exact hv.fresh s' d' hdesk' hmay
      alone := fun s₁ s₂ d₁ d₂ h₁ h₂ hmay₁ hmay₂ => by
        obtain ⟨rfl, rfl⟩ | h₁ := hnew h₁
        · exact absurd hmay₁ hidle
        obtain ⟨rfl, rfl⟩ | h₂ := hnew h₂
        · exact absurd hmay₂ hidle
        · exact hv.alone s₁ s₂ d₁ d₂ h₁ h₂ hmay₁ hmay₂
      hosts := fun T' hT' => by
        obtain ⟨s', d', hdesk', h⟩ := hv.hosts T' hT'
        exact ⟨s', d', hold hdesk', h⟩
      kept := fun hpending s' d' hdesk' hT' => by
        obtain ⟨rfl, rfl⟩ | hdesk' := hnew hdesk'
        · obtain ⟨s₁, d₁, hdesk₁, hterm₁⟩ := hv.hosts T hT'
          exact absurd hterm₁ (hfresh s₁ d₁ hdesk₁)
        · exact hv.kept hpending s' d' hdesk' hT'
      returned := fun hpending s' d' T' o hdesk' hr hunbegun => by
        obtain ⟨rfl, rfl⟩ | hdesk' := hnew hdesk'
        · obtain ⟨d₁, hdesk₁, -⟩ := hv.reports s' _ hr
          rw [hnone] at hdesk₁
          cases hdesk₁
        · exact hv.returned hpending s' d' T' o hdesk' hr hunbegun
      nonstart := fun o ho hunbegun => ⟨(hv.nonstart o ho hunbegun).1, fun s' d' hdesk' => by
        obtain ⟨rfl, rfl⟩ | hdesk' := hnew hdesk'
        · exact hidle
        · exact (hv.nonstart o ho hunbegun).2 s' d' hdesk'⟩
      working := fun s' d' task n hdesk' hjob => by
        obtain ⟨rfl, rfl⟩ | hdesk' := hnew hdesk'
        · cases hjob
        · exact hv.working s' d' task n hdesk' hjob
      success := fun h => by
        refine Done.setDesk (hv.success (h.imp_left fun ⟨s', d', hdesk', h⟩ => ?_))
          (by simp [Desk.fresh])
        obtain ⟨rfl, rfl⟩ | hdesk' := hnew hdesk'
        · simp [Desk.fresh] at h
        · exact ⟨s', d', hdesk', h⟩ }

/-- A server turns its job to a stage in which it neither asks nor works. -/
theorem Sound.withStage (hv : v.Sound R) (hdesk : v.desks s = some d) {stage : Stage Outcome}
    (hjob : d.job = some ⟨task, stage⟩) (stage' : Stage Outcome) (hasking : ∀ q, stage' ≠ .asking q)
    (hworking : ∀ n, stage' ≠ .working n)
    (hmay : stage' = .answered true → d.MayBegin (v.letters s))
    (hkept : d.HasBegun R → ∃ o, stage' = .ended o ∧ ¬ R.unbegun o)
    (hfailed : stage' ≠ .ended R.success) :
    (v.setDesk s (d.withStage task stage')).Sound R := by
  have htask : v.task = some task := hv.tasks.1 s d hdesk _ hjob
  refine hv.setDesk hdesk rfl (Nat.le_refl _) (fun job h => Option.some.inj h ▸ htask)
    (fun _ q h => absurd (congrArg Job.stage (Option.some.inj h)) (hasking q)) (fun h => ?_)
      (fun _ h => ?_)
    (fun _ n h => absurd (congrArg Job.stage (Option.some.inj h)) (hworking n)) fun h => ?_
  · obtain ⟨task', h | ⟨q, h, -⟩⟩ := h
    · exact hmay (congrArg Job.stage (Option.some.inj h))
    · exact absurd (congrArg Job.stage (Option.some.inj h)) (hasking q)
  · obtain ⟨o, rfl, hbegun⟩ := hkept h
    exact Or.inr (Or.inl ⟨task, o, rfl, hbegun⟩)
  · refine hv.success (Or.inl ⟨s, d, hdesk, Or.inr (h.resolve_left ?_)⟩)
    rintro ⟨_, h⟩
    exact hfailed (congrArg Job.stage (Option.some.inj h))

/-- A server takes the task in that has no outcome of it yet. -/
theorem Sound.admit (hv : v.Sound R) (hdesk : v.desks s = some d) (hjob : d.job = none)
    (hrecorded : d.recorded = none) (htask : v.task = some task ∨ .offer task ∈ v.letters s) :
    (v.setDesk s (d.withStage task .waiting)).Sound R := by
  refine hv.setDesk hdesk rfl (Nat.le_refl _) (fun job h => ?_)
      (fun _ _ h => by cases Option.some.inj h)
    (fun h => absurd h (not_mayBegin (by simp [Desk.withStage]) (by simp [Desk.withStage])))
    (fun _ h => ?_) (fun _ _ h => by cases Option.some.inj h) fun h => ?_
  · rw [← Option.some.inj h]
    exact htask.elim id (hv.tasks.2 s task)
  · obtain ⟨_, _, hjob'⟩ | ⟨_, _, hjob', -⟩ | ⟨-, _, hrecorded', -⟩ := h
    · rw [hjob] at hjob'
      cases hjob'
    · rw [hjob] at hjob'
      cases hjob'
    · rw [hrecorded] at hrecorded'
      cases hrecorded'
  · simp [Desk.withStage, hrecorded] at h

/-- A server that has ended its job, or has none, tells the outcome that it has or remembers. -/
theorem Sound.postResult (hv : v.Sound R) (hdesk : v.desks s = some d)
    (hwhy : (∃ task, d.job = some ⟨task, .ended o⟩) ∨
      d.job = none ∧ (d.recorded = some o ∨ d.recorded = none ∧ R.unbegun o)) :
    ({ v with reports := Function.update v.reports s (v.reports s ++ [.result d.term o]) } :
      State Server Term Task Outcome).Sound R := by
  have hstage : ∀ {task : Task} {stage : Stage Outcome}, d.job = some ⟨task, stage⟩ →
      stage = .ended o := by
    intro task stage h
    obtain ⟨task', hjob⟩ | ⟨hjob, -⟩ := hwhy
    · rw [hjob] at h
      exact (congrArg Job.stage (Option.some.inj h)).symm
    · rw [hjob] at h
      cases h
  have hnoask : ∀ task q, d.job ≠ some ⟨task, .asking q⟩ := fun task q h => by cases hstage h
  have hnoyes : ∀ task, d.job ≠ some ⟨task, .answered true⟩ := fun task h => by cases hstage h
  refine hv.post hdesk rfl (fun T q h => by cases h) fun T o' heq => ?_
  obtain ⟨-, rfl⟩ := Report.result.inj heq
  refine ⟨hnoask, fun heq => ?_, fun hpending hunbegun =>
    ⟨not_mayBegin hnoyes hnoask, fun hbegun => ?_⟩⟩
  · obtain ⟨task, hjob⟩ | ⟨-, hrecorded | ⟨-, hunbegun⟩⟩ := hwhy
    · exact hv.success (Or.inl ⟨s, d, hdesk, Or.inl ⟨task, heq ▸ hjob⟩⟩)
    · exact hv.success (Or.inl ⟨s, d, hdesk, Or.inr (heq ▸ hrecorded)⟩)
    · exact absurd (heq ▸ hunbegun) R.begun_success
  · obtain ⟨_, _, hjob⟩ | ⟨_, _, hjob, hnot⟩ | ⟨hjob, o', hrecorded', hnot⟩ :=
      hv.kept hpending s d hdesk hbegun
    · cases hstage hjob
    · exact hnot (Stage.ended.inj (hstage hjob) ▸ hunbegun)
    · obtain ⟨_, hjob'⟩ | ⟨-, hrecorded | ⟨hnone, -⟩⟩ := hwhy
      · rw [hjob] at hjob'
        cases hjob'
      · rw [hrecorded] at hrecorded'
        exact hnot (Option.some.inj hrecorded' ▸ hunbegun)
      · rw [hnone] at hrecorded'
        cases hrecorded'

/-- A no lets nobody begin. -/
theorem Sound.refuse (hv : v.Sound R) (hreport : .question T q ∈ v.reports s) :
    ({ v with letters := Function.update v.letters s (v.letters s ++ [.answer T q false]) } :
      State Server Term Task Outcome).Sound R := by
  obtain ⟨d, hdesk, hterm, hquestion⟩ := hv.reports s _ hreport
  obtain rfl : T = d.term := hterm
  refine hv.withMail (fun s => List.Sublist.refl _) fun s' letter hmem => ?_
  rw [Function.update_apply] at hmem
  split at hmem
  · next heq =>
    rw [heq]
    exact (List.mem_append.mp hmem).imp_right fun hnew =>
      Or.inr ⟨d, q, List.mem_singleton.mp hnew, hdesk, hquestion d.term q rfl⟩
  · exact Or.inl hmem

/-- A question has a number that no question before it had, so that no answer on its way is to
it. -/
theorem Sound.ask (hv : v.Sound R) (hdesk : v.desks s = some d)
    (hjob : d.job = some ⟨task, .waiting⟩) :
    ({ v.setDesk s
      { d.withStage task (.asking d.nextQuestion) with nextQuestion := d.nextQuestion + 1 } with
      reports := Function.update v.reports s (v.reports s ++ [.question d.term d.nextQuestion]) } :
      State Server Term Task Outcome).Sound R := by
  have htask : v.task = some task := hv.tasks.1 s d hdesk _ hjob
  have hasked : (v.setDesk s { d.withStage task (.asking d.nextQuestion) with
      nextQuestion := d.nextQuestion + 1 }).Sound R := by
    refine hv.setDesk hdesk rfl (Nat.le_succ _) (fun job h => Option.some.inj h ▸ htask)
        (fun _ q h => ?_)
      (fun h => ?_) (fun _ h => absurd h (Desk.not_hasBegun hjob ⟨by simp, by simp⟩))
      (fun _ _ h => by cases Option.some.inj h) fun h => ?_
    · obtain rfl := Stage.asking.inj (congrArg Job.stage (Option.some.inj h))
      exact Or.inr ⟨Nat.le_refl _, Nat.lt_succ_self _⟩
    · obtain ⟨task', h | ⟨q, h, hmem⟩⟩ := h
      · cases Option.some.inj h
      · obtain rfl := Stage.asking.inj (congrArg Job.stage (Option.some.inj h))
        obtain ⟨d', hdesk', -, hlt⟩ := hv.letters s _ _ _ hmem
        rw [hdesk] at hdesk'
        obtain rfl := Option.some.inj hdesk'
        exact absurd hlt (Nat.lt_irrefl _)
    · refine hv.success (Or.inl ⟨s, d, hdesk, Or.inr (h.resolve_left ?_)⟩)
      rintro ⟨_, h⟩
      cases Option.some.inj h
  refine hasked.post (setDesk_eq_some.mpr (Or.inl ⟨rfl, rfl⟩)) rfl (fun T q h => ?_)
    fun T o h => by cases h
  obtain ⟨-, rfl⟩ := Report.question.inj h
  exact Nat.lt_succ_self _

/-- Who was told yes begins: the yes was for its term, and for nobody else. -/
theorem Sound.beginTold (hv : v.Sound R) (hdesk : v.desks s = some d)
    (hjob : d.job = some ⟨task, .answered true⟩) :
    ({ v.setDesk s (d.withStage task (.working 0)) with begun := v.begun ++ [d.term] } :
      State Server Term Task Outcome).Sound R := by
  have hmay : d.MayBegin (v.letters s) := ⟨task, Or.inl hjob⟩
  refine hv.begin hdesk hjob (hv.fresh s d hdesk hmay)
    (fun s' d' hdesk' hmay' => hv.alone s' s d' d hdesk' hdesk hmay' hmay) (fun m hpending => ?_)
    (fun hpending T o hr hunbegun => (hv.returned hpending s d T o hdesk hr hunbegun).1 hmay)
    fun o ho hunbegun => (hv.nonstart o ho hunbegun).2 s d hdesk hmay
  have hstarted := hv.entrusted m s d hpending hdesk hmay
  exact ⟨Option.ne_none_iff_exists'.mpr ⟨m, hpending⟩, hstarted,
    hv.marks m d.term hpending hstarted⟩

/-- The issuer begins at its own desk in the term it has addressed the task to. -/
theorem Sound.beginOwn (hv : v.Sound R) (hpending : v.pending = some m) (hdesk : v.desks s = some d)
    (haddressed : m.addressed = some d.term) (hsilent : v.reports s = [])
    (hjob : d.job = some ⟨task, .waiting⟩) :
    ({ v.setDesk s (d.withStage task (.working 0)) with
      pending := some { m with started := m.started.or (some d.term) }
      begun := v.begun ++ [d.term] } : State Server Term Task Outcome).Sound R := by
  have hsome : v.pending ≠ none := Option.ne_none_iff_exists'.mpr ⟨m, hpending⟩
  have hnot : ¬ d.HasBegun R := Desk.not_hasBegun hjob ⟨by simp, by simp⟩
  have hbegun : v.begun = [] := List.eq_nil_iff_forall_not_mem.mpr fun T hT => by
    rw [hv.term_of_begun hpending haddressed hT] at hT
    exact hnot (hv.kept hsome s d hdesk hT)
  refine hv.begin hdesk hjob hbegun (fun s' d' hdesk' hmay' => ?_) (fun m' hm' => ?_)
      (fun _ T o hr => ?_)
    fun o ho => ?_
  · exact hv.terms s' s d' d hdesk' hdesk (hv.term_of_mayBegin hpending haddressed hdesk' hmay')
  · obtain rfl := Option.some.inj hm'
    exact ⟨hsome, hv.started_or hpending haddressed, haddressed⟩
  · rw [hsilent] at hr
    cases hr
  · refine absurd (hv.settled.2 fun hnil => ?_).1 hsome
    rw [hnil] at ho
    cases ho

/-- A server clears its desk, and remembers the outcome unless the task was handed back. -/
theorem Sound.leave (hv : v.Sound R) (hdesk : v.desks s = some d)
    (hjob : d.job = some ⟨task, .ended o⟩)
    {recorded : Option Outcome}
    (hrecorded : R.handsBack o ∧ recorded = d.recorded ∨ ¬ R.handsBack o ∧ recorded = some o) :
    (v.setDesk s { d with job := none, recorded }).Sound R := by
  refine hv.setDesk hdesk rfl (Nat.le_refl _) (fun job h => by cases h) (fun _ _ h => by cases h)
    (fun h => absurd h (not_mayBegin (by simp) (by simp))) (fun _ h => ?_) (fun _ _ h => by cases h)
    fun h => ?_
  · obtain ⟨_, _, hjob'⟩ | ⟨_, o', hjob', hnot⟩ | ⟨hnone, -⟩ := h
    · rw [hjob] at hjob'
      cases Option.some.inj hjob'
    · rw [hjob] at hjob'
      obtain rfl : o = o' := Stage.ended.inj (congrArg Job.stage (Option.some.inj hjob'))
      obtain ⟨hback, -⟩ | ⟨-, rfl⟩ := hrecorded
      · exact absurd (R.unbegun_of_handsBack o hback) hnot
      · exact Or.inr (Or.inr ⟨rfl, o, rfl, hnot⟩)
    · rw [hjob] at hnone
      cases hnone
  · have h : recorded = some R.success := h.resolve_left fun ⟨_, h⟩ => by cases h
    obtain ⟨-, rfl⟩ | ⟨-, rfl⟩ := hrecorded
    · exact hv.success (Or.inl ⟨s, d, hdesk, Or.inr h⟩)
    · exact hv.success (Or.inl ⟨s, d, hdesk, Or.inl ⟨task, Option.some.inj h ▸ hjob⟩⟩)

/-- What the issuer does not wait for may be forgotten. -/
theorem Sound.forget (hv : v.Sound R) (hpending : v.pending = none) (hdesk : v.desks s = some d) :
    (v.setDesk s { d with recorded := none }).Sound R := by
  refine hv.setDesk hdesk rfl (Nat.le_refl _) (fun job h => hv.tasks.1 s d hdesk job h)
    (fun _ _ h => Or.inl h) (fun h => h) (fun h => absurd hpending h) (fun _ _ h => h) fun h => ?_
  exact hv.success (Or.inl ⟨s, d, hdesk, Or.inl (h.resolve_right fun h => by cases h)⟩)

/-- **Whatever happens, the invariant holds on.** -/
theorem Step.sound (h : Step R v v') (hv : v.Sound R) : v'.Sound R := by
  cases h with
  | loses reports letters hreports hletters =>
    exact hv.withMail hreports fun s letter hmem => Or.inl ((hletters s).subset hmem)
  | dies => exact hv.die
  | issues task hnone => exact hv.issue hnone task
  | addresses m hpending hstarted addressed => exact hv.address hpending hstarted addressed
  | offers task htask letters hletters =>
    refine hv.withMail (fun s => List.Sublist.refl _) fun s letter hmem => ?_
    obtain heq | heq := hletters s
    · exact Or.inl (heq ▸ hmem)
    · rw [heq] at hmem
      exact (List.mem_append.mp hmem).imp_right fun hnew =>
        Or.inl ⟨task, List.mem_singleton.mp hnew, htask⟩
  | rejects m hpending o hfailed hstarted =>
    exact hv.settle hpending
      (fun hunbegun => hv.untouched_of_unstarted hpending (hstarted hunbegun)) fun heq =>
        absurd heq hfailed
  | recalls m hpending hstarted s d hdesk o hrecorded =>
    exact hv.settle hpending (fun _ => hv.untouched_of_unstarted hpending hstarted) fun heq =>
      hv.success (Or.inl ⟨s, d, hdesk, Or.inr (heq ▸ hrecorded)⟩)
  | hears m hpending T haddressed o htells =>
    exact hv.settle hpending (hv.untouched_of_tells hpending haddressed htells) fun heq =>
      hv.done_of_tells (heq ▸ htells)
  | takesBack m hpending T haddressed o htells hback =>
    exact hv.takeBack hpending haddressed htells hback
  | admits s d hdesk hjob hrecorded task htask => exact hv.admit hdesk hjob hrecorded htask
  | posts s d hdesk o hwhy => exact hv.postResult hdesk hwhy
  | approves m hpending s T haddressed q rest hreports =>
    exact hv.approve hpending haddressed hreports
  | refuses s T q hreport => exact hv.refuse hreport
  | takesAnswer s d hdesk task q hjob isApproved hletter =>
    refine hv.withStage hdesk hjob _ (by simp) (by simp) (fun h => ?_)
      (fun h => absurd h (Desk.not_hasBegun hjob ⟨by simp, by simp⟩)) (by simp)
    exact ⟨task, Or.inr ⟨q, hjob, hletter (Stage.answered.inj h)⟩⟩
  | turnsBack s d hdesk task stage hjob hstage o hunbegun =>
    have hnot : ¬ d.HasBegun R :=
      Desk.not_hasBegun hjob (by obtain rfl | ⟨_, rfl⟩ := hstage <;> simp)
    refine hv.withStage hdesk hjob _ (by simp) (by simp) (by simp) (fun h =>
      absurd h hnot) fun h => ?_
    exact R.begun_success (Stage.ended.inj h ▸ hunbegun)
  | asks s d hdesk task hjob => exact hv.ask hdesk hjob
  | begins s d hdesk task hjob => exact hv.beginTold hdesk hjob
  | beginsOwn m hpending s d hdesk haddressed hsilent task hjob =>
    exact hv.beginOwn hpending hdesk haddressed hsilent hjob
  | works s d hdesk task done n hjob hsize stage hstage => exact hv.work hdesk hjob hsize hstage
  | fails s d hdesk task done hjob o hbegun hfailed =>
    exact hv.withStage hdesk hjob _ (by simp) (by simp) (by simp) (fun _ => ⟨o, rfl, hbegun⟩)
      fun h => hfailed (Stage.ended.inj h)
  | leaves s d hdesk task o hjob recorded hrecorded => exact hv.leave hdesk hjob hrecorded
  | forgets hpending hissued s d hdesk => exact hv.forget hpending hdesk
  | opens s hnone T hfresh => exact hv.open hnone hfresh
  | numbers s d hdesk n hn =>
    exact hv.setDesk hdesk rfl hn (fun job h => hv.tasks.1 s d hdesk job h) (fun _ _ h => Or.inl h)
      (fun h => h) (fun _ h => h) (fun _ _ h => h) fun h => hv.success (Or.inl ⟨s, d, hdesk, h⟩)

theorem Steps.sound (h : Steps R v v') (hv : v.Sound R) : v'.Sound R := by
  induction h with
  | refl => exact hv
  | tail _ hstep ih => exact hstep.sound ih

/-- What a server remembers is of a task that was issued. -/
def Remembered (v : State Server Term Task Outcome) : Prop :=
  ∀ s d, v.desks s = some d → d.recorded ≠ none → v.task ≠ none

theorem Remembered.setDesk (hr : v.Remembered) (hdesk : v.desks s = some d)
    (d' : Desk Term Task Outcome)
    (hrecorded : d'.recorded ≠ none → d.recorded ≠ none ∨ v.task ≠ none) :
    (v.setDesk s d').Remembered := by
  intro s' d₁ hdesk' hrecorded'
  obtain ⟨-, rfl⟩ | ⟨-, hdesk'⟩ := setDesk_eq_some.mp hdesk'
  · obtain hbefore | htask := hrecorded hrecorded'
    · exact hr s d hdesk hbefore
    · exact htask
  · exact hr s' d₁ hdesk' hrecorded'

theorem Step.remembered (h : Step R v v') (hv : v.Sound R) (hr : v.Remembered) : v'.Remembered := by
  cases h with
  | loses | dies | addresses | offers | rejects | recalls | hears | takesBack | posts | approves
  | refuses => exact hr
  | issues task hnone => exact fun _ _ _ _ => by simp
  | admits s d hdesk | takesAnswer s d hdesk | turnsBack s d hdesk | fails s d hdesk
  | numbers s d hdesk => exact hr.setDesk hdesk _ Or.inl
  | asks s d hdesk task hjob =>
    exact hr.setDesk hdesk
        { d.withStage task (.asking d.nextQuestion) with nextQuestion := d.nextQuestion + 1 } Or.inl
  | begins s d hdesk task hjob => exact hr.setDesk hdesk (d.withStage task (.working 0)) Or.inl
  | beginsOwn m hpending s d hdesk haddressed hsilent task hjob =>
    exact hr.setDesk hdesk (d.withStage task (.working 0)) Or.inl
  | works s d hdesk task done n hjob hsize stage =>
    exact hr.setDesk hdesk (d.withStage task stage) Or.inl
  | leaves s d hdesk task o hjob recorded =>
    refine hr.setDesk hdesk _ fun _ => Or.inr ?_
    rw [hv.tasks.1 s d hdesk _ hjob]
    simp
  | forgets hpending hissued s d hdesk => exact hr.setDesk hdesk _ fun h => absurd rfl h
  | opens s hnone T hfresh =>
    intro s' d₁ hdesk' hrecorded
    obtain ⟨-, rfl⟩ | ⟨-, hdesk'⟩ := setDesk_eq_some.mp hdesk'
    · exact absurd rfl hrecorded
    · exact hr s' d₁ hdesk' hrecorded

theorem Steps.remembered (h : Steps R v v') (hv : v.Sound R) (hr : v.Remembered) :
    v'.Remembered := by
  induction h with
  | refl => exact hr
  | tail hsteps hstep ih => exact hstep.remembered (Steps.sound hsteps hv) ih

/-- Once the issuer does not wait any more, it never does again. -/
theorem Step.over (h : Step R v v') (hpending : v.pending = none) (htask : v.task ≠ none) :
    v'.pending = none ∧ v'.task ≠ none := by
  have hnot : ∀ {m : Marks Term}, v.pending ≠ some m := fun heq => by
    rw [hpending] at heq
    cases heq
  cases h with
  | issues task hnone => exact absurd hnone htask
  | addresses m hm | rejects m hm | recalls m hm | hears m hm | takesBack m hm | approves m hm
  | beginsOwn m hm => exact absurd hm hnot
  | dies => exact ⟨rfl, htask⟩
  | loses | offers | admits | posts | refuses | takesAnswer | turnsBack | asks | begins | works
  | fails | leaves | forgets | opens | numbers =>
    exact ⟨hpending, htask⟩

theorem Steps.over (h : Steps R v v') (hover : v.pending = none ∧ v.task ≠ none) :
    v'.pending = none ∧ v'.task ≠ none := by
  induction h with
  | refl => exact hover
  | tail _ hstep ih => exact hstep.over ih.1 ih.2

end State

end Entrusting
