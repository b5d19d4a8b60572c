import Mathlib.Data.List.Infix
import Mathlib.Logic.Function.Basic
import SerialBroker.Lib.JsTree

/-!
# Programs over a storage whose operations may throw

A call of the store is the storage operations it makes and the problems it reports, where what comes
next depends on what an operation returned, or that it threw. A run is given the fate of each
operation; where the fates are over the tab has crashed. An operation that throws has changed
nothing.

With working storage no operation throws, and what a call does is a function of what is stored.
-/

namespace SerialBroker

/-- `storageIndexKey()` and `storageEntryKey(name)`. -/
inductive StorageKey
  | index
  | entry (name : JsString)
  deriving DecidableEq

/-- What is stored under the keys of the current format. -/
abbrev StoredTexts := StorageKey → Option JsonText

inductive StoreProblem
  | unavailable (operation : String)
  | corruptIndex (reason : String)
  | corruptEntry (name : JsString) (reason : String)

inductive StoreProgram (α : Type)
  | done (a : α)
  /-- `none` to the rest of the program: the operation threw. -/
  | getItem (key : StorageKey) (next : Option (Option JsonText) → StoreProgram α)
  | setItem (key : StorageKey) (value : JsonText) (next : Bool → StoreProgram α)
  | removeItem (key : StorageKey) (next : Bool → StoreProgram α)
  | report (problem : StoreProblem) (next : StoreProgram α)

inductive StoreOperation
  | getItem (key : StorageKey)
  | setItem (key : StorageKey) (value : JsonText)
  | removeItem (key : StorageKey)

inductive OperationFate
  | works
  | throws
  deriving DecidableEq

/-- How far a run came; without a result the tab crashed before the next operation. -/
structure CallRun (α : Type) where
  texts : StoredTexts
  fates : List OperationFate
  trace : List (StoreOperation × OperationFate)
  problems : List StoreProblem
  result : Option α

namespace StoreProgram

variable {α β : Type}

def bind : StoreProgram α → (α → StoreProgram β) → StoreProgram β
  | done a, f => f a
  | getItem key next, f => getItem key fun read => (next read).bind f
  | setItem key value next, f => setItem key value fun isDone => (next isDone).bind f
  | removeItem key next, f => removeItem key fun isDone => (next isDone).bind f
  | report problem next, f => report problem (next.bind f)

instance : Monad StoreProgram where
  pure := done
  bind := bind

def read (key : StorageKey) : StoreProgram (Option (Option JsonText)) := getItem key done

def tellProblem (problem : StoreProblem) : StoreProgram Unit := report problem (done ())

/-- The run of a program under these fates. -/
def run : StoreProgram α → List OperationFate → StoredTexts → CallRun α
  | done a, fates, texts => ⟨texts, fates, [], [], some a⟩
  | report problem next, fates, texts =>
    let r := next.run fates texts
    { r with problems := problem :: r.problems }
  | getItem _ _, [], texts => ⟨texts, [], [], [], none⟩
  | getItem key next, fate :: fates, texts =>
    let r := (next (if fate = .works then some (texts key) else none)).run fates texts
    { r with trace := (.getItem key, fate) :: r.trace }
  | setItem _ _ _, [], texts => ⟨texts, [], [], [], none⟩
  | setItem key value next, fate :: fates, texts =>
    let r := (next (fate = .works)).run fates
      (if fate = .works then Function.update texts key (some value) else texts)
    { r with trace := (.setItem key value, fate) :: r.trace }
  | removeItem _ _, [], texts => ⟨texts, [], [], [], none⟩
  | removeItem key next, fate :: fates, texts =>
    let r := (next (fate = .works)).run fates
      (if fate = .works then Function.update texts key none else texts)
    { r with trace := (.removeItem key, fate) :: r.trace }

/-- What a program does with working storage. -/
def perform : StoreProgram α → StoredTexts → StoredTexts × List StoreProblem × α
  | done a, texts => (texts, [], a)
  | report problem next, texts =>
    let r := next.perform texts
    (r.1, problem :: r.2.1, r.2.2)
  | getItem key next, texts => (next (some (texts key))).perform texts
  | setItem key value next, texts => (next true).perform (Function.update texts key (some value))
  | removeItem key next, texts => (next true).perform (Function.update texts key none)

end StoreProgram

/-- The run goes on with what the result is followed by. -/
def CallRun.andThen {α β : Type} (r : CallRun α) (f : α → StoreProgram β) : CallRun β :=
  match r.result with
  | none => ⟨r.texts, r.fates, r.trace, r.problems, none⟩
  | some a =>
    let r' := (f a).run r.fates r.texts
    ⟨r'.texts, r'.fates, r.trace ++ r'.trace, r.problems ++ r'.problems, r'.result⟩

namespace StoreProgram

variable {α β : Type} {texts : StoredTexts} {fates : List OperationFate} {fate : OperationFate}
  {key : StorageKey} {value : JsonText}
  {problem : StoreProblem} {f : α → StoreProgram β}

@[simp] theorem pure_eq (a : α) : (pure a : StoreProgram α) = done a := rfl

@[simp] theorem done_bind (a : α) : (done a >>= f) = f a := rfl

@[simp] theorem report_bind {next : StoreProgram α} :
    (report problem next >>= f) = report problem (next >>= f) := rfl

@[simp] theorem getItem_bind {next : Option (Option JsonText) → StoreProgram α} :
    (getItem key next >>= f) = getItem key fun read => next read >>= f := rfl

@[simp] theorem setItem_bind {next : Bool → StoreProgram α} :
    (setItem key value next >>= f) = setItem key value fun isDone => next isDone >>= f := rfl

@[simp] theorem removeItem_bind {next : Bool → StoreProgram α} :
    (removeItem key next >>= f) = removeItem key fun isDone => next isDone >>= f := rfl

@[simp] theorem read_bind {f : Option (Option JsonText) → StoreProgram β} :
    (read key >>= f) = getItem key f := rfl

@[simp] theorem tellProblem_bind {f : Unit → StoreProgram β} :
    (tellProblem problem >>= f) = report problem (f ()) := rfl

@[simp] theorem perform_done (a : α) : (done a).perform texts = (texts, [], a) := rfl

@[simp] theorem perform_report {next : StoreProgram α} :
    (report problem next).perform texts = ((next.perform texts).1,
      problem :: (next.perform texts).2.1, (next.perform texts).2.2) := rfl

@[simp] theorem perform_getItem {next : Option (Option JsonText) → StoreProgram α} :
    (getItem key next).perform texts = (next (some (texts key))).perform texts := rfl

@[simp] theorem perform_setItem {next : Bool → StoreProgram α} :
    (setItem key value next).perform texts = (next true).perform
    (Function.update texts key (some value)) := rfl

@[simp] theorem perform_removeItem {next : Bool → StoreProgram α} :
    (removeItem key next).perform texts = (next true).perform (Function.update texts key none) :=
    rfl

@[simp] theorem run_done (a : α) : (done a).run fates texts = ⟨texts, fates, [], [], some a⟩ := by
  cases fates <;> rfl

@[simp] theorem run_report {next : StoreProgram α} :
    (report problem next).run fates texts =
      { next.run fates texts with problems := problem :: (next.run fates texts).problems } := by
  cases fates <;> rfl

@[simp] theorem run_getItem_nil {next : Option (Option JsonText) → StoreProgram α} :
    (getItem key next).run [] texts = ⟨texts, [], [], [], none⟩ := rfl

@[simp] theorem run_getItem_works {next : Option (Option JsonText) → StoreProgram α} :
    (getItem key next).run (.works :: fates) texts =
      { (next (some (texts key))).run fates texts with
        trace := (.getItem key, .works) :: ((next (some (texts key))).run fates texts).trace } :=
          rfl

@[simp] theorem run_getItem_throws {next : Option (Option JsonText) → StoreProgram α} :
    (getItem key next).run (.throws :: fates) texts =
      { (next none).run fates texts with
      trace := (.getItem key, .throws) :: ((next none).run fates texts).trace } := rfl

@[simp] theorem run_setItem_nil {next : Bool → StoreProgram α} :
    (setItem key value next).run [] texts = ⟨texts, [], [], [], none⟩ := rfl

@[simp] theorem run_setItem_works {next : Bool → StoreProgram α} :
    (setItem key value next).run (.works :: fates) texts =
      { (next true).run fates (Function.update texts key (some value)) with
        trace := (.setItem key value, .works) ::
            ((next true).run fates (Function.update texts key (some value))).trace } := rfl

@[simp] theorem run_setItem_throws {next : Bool → StoreProgram α} :
    (setItem key value next).run (.throws :: fates) texts =
      { (next false).run fates texts with
      trace := (.setItem key value, .throws) :: ((next false).run fates texts).trace } := rfl

@[simp] theorem run_removeItem_nil {next : Bool → StoreProgram α} :
    (removeItem key next).run [] texts = ⟨texts, [], [], [], none⟩ := rfl

@[simp] theorem run_removeItem_works {next : Bool → StoreProgram α} :
    (removeItem key next).run (.works :: fates) texts =
      { (next true).run fates (Function.update texts key none) with
        trace := (.removeItem key, .works) ::
            ((next true).run fates (Function.update texts key none)).trace } := rfl

@[simp] theorem run_removeItem_throws {next : Bool → StoreProgram α} :
    (removeItem key next).run (.throws :: fates) texts =
      { (next false).run fates texts with
      trace := (.removeItem key, .throws) :: ((next false).run fates texts).trace } := rfl

theorem run_bind (p : StoreProgram α) (f : α → StoreProgram β) (fates : List OperationFate)
    (texts : StoredTexts) :
    (p >>= f).run fates texts = (p.run fates texts).andThen f := by
  show (p.bind f).run fates texts = _
  have hcons : ∀ {r : CallRun α} (step : StoreOperation × OperationFate),
      ({ r with trace := step :: r.trace } : CallRun α).andThen f =
        { r.andThen f with trace := step :: (r.andThen f).trace } := by
    intro r step
    simp only [CallRun.andThen]
    cases r.result <;> rfl
  have hproblem : ∀ {r : CallRun α} (problem : StoreProblem),
      ({ r with problems := problem :: r.problems } : CallRun α).andThen f =
        { r.andThen f with problems := problem :: (r.andThen f).problems } := by
    intro r problem
    simp only [CallRun.andThen]
    cases r.result <;> rfl
  induction p generalizing fates texts with
  | done a => rfl
  | report problem next ih =>
    simp only [bind, run, ih, hproblem]
  | getItem key next ih =>
    cases fates with
    | nil => rfl
    | cons fate fates => simp only [bind, run, ih, hcons]
  | setItem key value next ih =>
    cases fates with
    | nil => rfl
    | cons fate fates => simp only [bind, run, ih, hcons]
  | removeItem key next ih =>
    cases fates with
    | nil => rfl
    | cons fate fates => simp only [bind, run, ih, hcons]

theorem texts_andThen_done (r : CallRun α) (g : α → β) :
    (r.andThen fun a => done (g a)).texts = r.texts := by
  rw [CallRun.andThen]
  cases r.result <;> simp

theorem perform_bind (p : StoreProgram α) (f : α → StoreProgram β) (texts : StoredTexts) :
    (p >>= f).perform texts =
      (((f (p.perform texts).2.2).perform (p.perform texts).1).1,
        (p.perform texts).2.1 ++ ((f (p.perform texts).2.2).perform (p.perform texts).1).2.1,
        ((f (p.perform texts).2.2).perform (p.perform texts).1).2.2) := by
  show (p.bind f).perform texts = _
  induction p generalizing texts with
  | done a => rfl
  | report problem next ih => simp only [bind, perform, ih, List.cons_append]
  | getItem key next ih => simp only [bind, perform, ih]
  | setItem key value next ih => simp only [bind, perform, ih]
  | removeItem key next ih => simp only [bind, perform, ih]

/-- An operation that works or throws is one operation before those of the branch it leads to. -/
theorem exists_operations {worked thrown : List OperationFate → Prop} {n m : ℕ}
    (hworked : ∀ fates, n ≤ fates.length → worked fates)
    (hthrown : ∀ fates, m ≤ fates.length → thrown fates) {returned : List OperationFate → Prop}
    (hworks : ∀ fates, worked fates → returned (.works :: fates))
    (hthrows : ∀ fates, thrown fates → returned (.throws :: fates)) :
    ∃ k, ∀ fates, k ≤ fates.length → returned fates := by
  refine ⟨max n m + 1, fun fates hfates => ?_⟩
  cases fates with
  | nil => simp at hfates
  | cons fate fates =>
    have hlength : max n m ≤ fates.length := Nat.le_of_succ_le_succ hfates
    cases fate with
    | works => exact hworks fates (hworked fates (le_trans (le_max_left _ _) hlength))
    | throws => exact hthrows fates (hthrown fates (le_trans (le_max_right _ _) hlength))

/-- Whatever its operations do, a call returns. -/
theorem returns (p : StoreProgram α) (texts : StoredTexts) :
    ∃ n, ∀ fates : List OperationFate, n ≤ fates.length →
    (p.run fates texts).result.isSome = true := by
  induction p generalizing texts with
  | done a => exact ⟨0, fun _ _ => rfl⟩
  | report problem next ih => exact ih texts
  | getItem key next ih =>
    obtain ⟨n, hn⟩ := ih (some (texts key)) texts
    obtain ⟨m, hm⟩ := ih none texts
    exact exists_operations hn hm (fun _ hreturned => hreturned) fun _ hreturned => hreturned
  | setItem key value next ih =>
    obtain ⟨n, hn⟩ := ih true (Function.update texts key (some value))
    obtain ⟨m, hm⟩ := ih false texts
    exact exists_operations hn hm (fun _ hreturned => hreturned) fun _ hreturned => hreturned
  | removeItem key next ih =>
    obtain ⟨n, hn⟩ := ih true (Function.update texts key none)
    obtain ⟨m, hm⟩ := ih false texts
    exact exists_operations hn hm (fun _ hreturned => hreturned) fun _ hreturned => hreturned

/-- A run in which no operation throws is what the program does with working storage. -/
theorem perform_of_run {p : StoreProgram α} {a : α} (hworks : ∀ fate ∈ fates, fate = .works)
    (hresult : (p.run fates texts).result = some a) :
    p.perform texts = ((p.run fates texts).texts, (p.run fates texts).problems, a) := by
  induction p generalizing fates texts with
  | done b =>
    obtain rfl : b = a := Option.some.inj hresult
    rfl
  | report problem next ih =>
    simp only [run] at hresult
    simp only [perform, run, ih hworks hresult]
  | getItem key next ih =>
    cases fates with
    | nil => cases hresult
    | cons fate fates =>
      obtain rfl := hworks fate List.mem_cons_self
      exact ih _ (fun other hother => hworks other (List.mem_cons_of_mem _ hother)) hresult
  | setItem key value next ih =>
    cases fates with
    | nil => cases hresult
    | cons fate fates =>
      obtain rfl := hworks fate List.mem_cons_self
      exact ih _ (fun other hother => hworks other (List.mem_cons_of_mem _ hother)) hresult
  | removeItem key next ih =>
    cases fates with
    | nil => cases hresult
    | cons fate fates =>
      obtain rfl := hworks fate List.mem_cons_self
      exact ih _ (fun other hother => hworks other (List.mem_cons_of_mem _ hother)) hresult

end StoreProgram

end SerialBroker
