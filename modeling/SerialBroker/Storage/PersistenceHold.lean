import SerialBroker.Lib.TransitionSystem
import SerialBroker.Lib.WebLocks
import SerialBroker.Storage.ConfigurationStore

/-!
# One remembered name, in every tab of the origin

Every tab that runs the configuration with `remember` holds the name's persistence lock, shared; a
tab that is to forget the entry lets go of its own hold and then removes the entry inside the lock,
taken exclusively with `ifAvailable`. Saving is not locked. This module follows the client's
`#remember`, `#letGoOfHold` and `#forgetUnlessRunElsewhere` for one name in any number of tabs, with
the `HeldLock` under the hold and `forgetUnlessHeld`, down to the single storage operation and the
single step of the lock manager.

A call that finds a release under way waits for it, and goes on once it has finished, whatever has
come of the name by then. A tab runs one thing at a time: while a call of the store is under way in
it nothing else of it runs, but for the calls a logger makes where the store logs, and the lock
manager and the other tabs go on. A tab may crash between any two operations. The browser may refuse
any request, also one with `ifAvailable` for a lock that nothing holds.
-/

namespace SerialBroker

variable {τ ν : Type*}

/-- A request for the persistence lock of the name. -/
inductive PersistenceRequest (τ : Type*) where
  | hold (tab : τ) (number : ℕ)
  | forget (tab : τ) (number : ℕ)
  deriving DecidableEq

def PersistenceRequest.tab : PersistenceRequest τ → τ
  | .hold tab _ => tab
  | .forget tab _ => tab

/-- How far the `HeldLock` of a hold has come. -/
inductive HoldStage where
  | registered
  | requested
  /-- The browser refused the request, and the pause before the next one has not passed. -/
  | refused
  /-- The lock is held; the callback has not run yet. -/
  | granted
  | saving
  | holding (isSaved : Bool)
  /-- The lock was granted after `stop()`, and the callback has returned. -/
  | returned
  deriving DecidableEq

structure Hold where
  stage : HoldStage
  isStopped : Bool
  deriving DecidableEq

/-- How far a call of `#letGoOfHold` has come, and what `#forgetUnlessRunElsewhere` does after
it. -/
inductive LeavingStage where
  | lettingGo
  | asking (attempt : ℕ)
  /-- The lock is held; the callback has not run yet. -/
  | granted
  | removing
  | removed
  | refused (attempt : ℕ)
  deriving DecidableEq

structure Leaving where
  /-- The hold whose end is awaited. -/
  hold : Option ℕ
  isForgetting : Bool
  stage : LeavingStage
  deriving DecidableEq

/-- What a call of the store is made for, that no `setup()` makes. -/
inductive StoreUse where
  | hold (number : ℕ)
  | resolution
  | forget (number : ℕ)
  deriving DecidableEq

structure StoreRun (ν : Type*) where
  use : StoreUse
  call : StoreCall ν
  deriving DecidableEq

/-- A call of `setup()` that has found no session, until its own is remembered. -/
inductive SetupWork (ν : Type*) where
  /-- The session is being made, and is not registered yet. -/
  | looking (remember : Bool)
  | saving (number : ℕ) (call : StoreCall ν)
  deriving DecidableEq

/-- A call that waits for a release to finish. -/
inductive NameCall where
  | setup (remember : Bool) (releasing : ℕ)
  | release (releasing : ℕ)
  | releaseAgain (forget : Bool) (releasing : Option ℕ)
  | forgetAsAsked (forget : Bool) (releasing : Option ℕ)
  deriving DecidableEq

def NameCall.awaited : NameCall → Option ℕ
  | .setup _ releasing => some releasing
  | .release releasing => some releasing
  | .releaseAgain _ releasing => releasing
  | .forgetAsAsked _ releasing => releasing

/-- What one tab's client keeps about the name. -/
structure NameTab (ν : Type*) where
  isAlive : Bool
  /-- The session set up for the name. -/
  session : Option ℕ
  /-- The hold `#holds` has for the name; a hold has the number of its session. -/
  registered : Option ℕ
  /-- What `#releasing` has for the name. -/
  releasing : Option ℕ
  /-- `#setUpDuringRelease.has(name)`. -/
  isSetUpDuringRelease : Bool
  /-- The calls of `#finishRelease` that have not finished. -/
  finishing : List ℕ
  waiting : List NameCall
  /-- The calls of `setup()` that are running, each inside the next one. -/
  setups : List (SetupWork ν)
  /-- The call of the store they run in. -/
  running : Option (StoreRun ν)
  holds : ℕ → Option Hold
  leavings : ℕ → Option Leaving

/-- The tabs of the origin, as far as the name goes. -/
structure RememberedName (τ ν : Type*) where
  storage : KeyValueStorage ν
  lock : WebLock (PersistenceRequest τ)
  tab : τ → NameTab ν
  next : ℕ

inductive PersistenceEvent (τ : Type*) where
  | setup (tab : τ) (remember : Bool)
  /-- `setup()` registers the session it has made. -/
  | sessionMade (tab : τ)
  | release (tab : τ) (forget : Bool)
  | releaseFinished (tab : τ) (number : ℕ)
  /-- A call goes on that has waited for a release. -/
  | goesOn (tab : τ) (call : NameCall)
  | resolved (tab : τ)
  /-- The running call of the store does its next storage operation. -/
  | operation (tab : τ)
  | holdGranted (tab : τ) (number : ℕ)
  | holdEntered (tab : τ) (number : ℕ)
  | holdWithdrawn (tab : τ) (number : ℕ)
  | holdRefused (tab : τ) (number : ℕ)
  | holdRetried (tab : τ) (number : ℕ)
  | holdLetGo (tab : τ) (number : ℕ)
  | letGoAwaited (tab : τ) (number : ℕ)
  | forgetAnswered (tab : τ) (number : ℕ) (isGranted : Bool)
  | forgetEntered (tab : τ) (number : ℕ)
  | forgetLetGo (tab : τ) (number : ℕ)
  | forgetFailed (tab : τ) (number : ℕ)
  | holdersQueried (tab : τ) (number : ℕ) (someoneHolds : Bool)
  | crash (tab : τ)
  deriving DecidableEq

def attemptsAfterARefusal : ℕ := 3

namespace Hold

/-- `HeldLock.stop()`: a hold that has no request under way has ended with it. -/
def stop (hold : Hold) : Option Hold :=
  match hold.stage with
  | .registered | .refused => none
  | _ => some { hold with isStopped := true }

end Hold

namespace NameTab

def fresh : NameTab ν where
  isAlive := true
  session := none
  registered := none
  releasing := none
  isSetUpDuringRelease := false
  finishing := []
  waiting := []
  setups := []
  running := none
  holds := fun _ => none
  leavings := fun _ => none

def crashed : NameTab ν := { fresh with isAlive := false }

def isIdle (tab : NameTab ν) : Bool := tab.isAlive && tab.setups.isEmpty && tab.running.isNone

/-- Whether the client can be called: by the page, or by a logger. -/
def mayCall (tab : NameTab ν) : Bool :=
  tab.isAlive && match tab.setups with
    | [] => tab.running.all fun run => run.call.isLogging
    | .looking _ :: _ => true
    | .saving _ call :: _ => call.isLogging

/-- The call of the store that is under way. -/
def storeCall (tab : NameTab ν) : Option (StoreCall ν) :=
  match tab.setups with
  | [] => tab.running.map (·.call)
  | .looking _ :: _ => none
  | .saving _ call :: _ => some call

/-- Whether the call waits: the release it found has not finished. -/
def waitsFor (tab : NameTab ν) (call : NameCall) : Bool := call.awaited.any tab.finishing.contains

def setHold (tab : NameTab ν) (number : ℕ) (hold : Option Hold) : NameTab ν :=
  { tab with holds := Function.update tab.holds number hold }

def setLeaving (tab : NameTab ν) (number : ℕ) (leaving : Option Leaving) : NameTab ν :=
  { tab with leavings := Function.update tab.leavings number leaving }

theorem holds_setHold (tab : NameTab ν) (number other : ℕ) (hold : Option Hold) :
    (tab.setHold number hold).holds other = if other = number then hold else tab.holds other :=
  Function.update_apply ..

theorem leavings_setLeaving (tab : NameTab ν) (number other : ℕ) (leaving : Option Leaving) :
    (tab.setLeaving number leaving).leavings other =
      if other = number then leaving else tab.leavings other :=
  Function.update_apply ..

@[simp, grind =] theorem running_setHold (tab : NameTab ν) (number : ℕ) (hold : Option Hold) :
    (tab.setHold number hold).running = tab.running := rfl

@[simp, grind =] theorem setups_setHold (tab : NameTab ν) (number : ℕ) (hold : Option Hold) :
    (tab.setHold number hold).setups = tab.setups := rfl

@[simp, grind =] theorem running_setLeaving (tab : NameTab ν) (number : ℕ)
    (leaving : Option Leaving) : (tab.setLeaving number leaving).running = tab.running := rfl

@[simp, grind =] theorem setups_setLeaving (tab : NameTab ν) (number : ℕ)
    (leaving : Option Leaving) : (tab.setLeaving number leaving).setups = tab.setups := rfl

theorem running_of_isIdle {tab : NameTab ν} (h : tab.isIdle = true) : tab.running = none :=
  Option.isNone_iff_eq_none.mp (Bool.and_eq_true_iff.mp h).2

theorem setups_of_isIdle {tab : NameTab ν} (h : tab.isIdle = true) : tab.setups = [] :=
  List.isEmpty_iff.mp (Bool.and_eq_true_iff.mp (Bool.and_eq_true_iff.mp h).1).2

/-- The part of `#letGoOfHold` before its wait. -/
def stopHold (tab : NameTab ν) : NameTab ν :=
  match tab.registered with
  | none => tab
  | some number =>
    { tab.setHold number ((tab.holds number).bind Hold.stop) with registered := none }

@[simp, grind =] theorem running_stopHold (tab : NameTab ν) :
    tab.stopHold.running = tab.running := by
  unfold stopHold
  split <;> rfl

@[simp, grind =] theorem setups_stopHold (tab : NameTab ν) : tab.stopHold.setups = tab.setups := by
  unfold stopHold
  split <;> rfl

theorem leavings_stopHold (tab : NameTab ν) : tab.stopHold.leavings = tab.leavings := by
  unfold stopHold
  split <;> rfl

/-- `#letGoOfHold`, or `#forgetUnlessRunElsewhere`, up to the wait for the hold's end. -/
def leave (tab : NameTab ν) (number : ℕ) (isForgetting : Bool) : NameTab ν :=
  tab.stopHold.setLeaving number (some ⟨tab.registered, isForgetting, .lettingGo⟩)

@[simp, grind =] theorem running_leave (tab : NameTab ν) (number : ℕ) (isForgetting : Bool) :
    (tab.leave number isForgetting).running = tab.running := running_stopHold tab

@[simp, grind =] theorem setups_leave (tab : NameTab ν) (number : ℕ) (isForgetting : Bool) :
    (tab.leave number isForgetting).setups = tab.setups := setups_stopHold tab

/-- `#remember` of a session just set up. -/
def remember (tab : NameTab ν) (name : ν) (number : ℕ) (remember : Bool) : NameTab ν :=
  if remember then
    { tab.setHold number (some ⟨.registered, false⟩) with
      registered := some number
      setups := .saving number (.save name) :: tab.setups }
  else tab.leave number true

/-- `setup()`, from where it looks for a session of the name. -/
def look (tab : NameTab ν) (remember : Bool) : NameTab ν :=
  if tab.session.isSome then tab else { tab with setups := .looking remember :: tab.setups }

/-- `setup()`, up to its first wait. -/
def setup (tab : NameTab ν) (remember : Bool) : NameTab ν :=
  match tab.releasing with
  | some releasing =>
    { tab with
      isSetUpDuringRelease := true
      waiting := tab.waiting ++ [.setup remember releasing] }
  | none => tab.look remember

/-- `release()` of a name that is not set up, up to its first wait. -/
def releaseUnset (tab : NameTab ν) (forget : Bool) : NameTab ν :=
  { tab with
    waiting := tab.waiting ++
      [if tab.isSetUpDuringRelease then .releaseAgain forget tab.releasing
        else .forgetAsAsked forget tab.releasing] }

/-- `release()` of the session, up to its first wait. -/
def releaseSession (tab : NameTab ν) (number : ℕ) (forget : Bool) : NameTab ν :=
  { tab.leave number forget with
    session := none
    releasing := some number
    finishing := number :: tab.finishing
    waiting := tab.waiting ++ [.release number] }

end NameTab

namespace RememberedName

variable [DecidableEq τ] [DecidableEq ν]

def setTab (s : RememberedName τ ν) (tab : τ) (entered : NameTab ν) : RememberedName τ ν :=
  { s with tab := Function.update s.tab tab entered }

def setLock (s : RememberedName τ ν) (lock : WebLock (PersistenceRequest τ)) :
    RememberedName τ ν :=
  { s with lock := lock }

/-- `HeldLock.start()` -/
def start (s : RememberedName τ ν) (tab : τ) (number : ℕ) : RememberedName τ ν :=
  (s.setTab tab ((s.tab tab).setHold number (some ⟨.requested, false⟩))).setLock
    (s.lock.request ⟨.hold tab number, false⟩)

/-- What follows the save of `#remember` in the tab. -/
def remembered (s : RememberedName τ ν) (tab : τ) (number : ℕ) (below : List (SetupWork ν)) :
    RememberedName τ ν :=
  let s := s.setTab tab { s.tab tab with setups := below }
  if (s.tab tab).registered = some number then s.start tab number else s

/-- What follows another call of the store in the tab. -/
def returned (s : RememberedName τ ν) (tab : τ) (use : StoreUse) : RememberedName τ ν :=
  let s := s.setTab tab { s.tab tab with running := none }
  match use with
  | .hold number =>
    s.setTab tab ((s.tab tab).setHold number (((s.tab tab).holds number).map fun hold =>
      { hold with stage := .holding true }))
  | .resolution => s
  | .forget number =>
    s.setTab tab ((s.tab tab).setLeaving number (((s.tab tab).leavings number).map fun leaving =>
      { leaving with stage := .removed }))

/-- One storage operation of a save that `#remember` makes. -/
def operateSetup (s : RememberedName τ ν) (tab : τ) (number : ℕ) (call : StoreCall ν)
    (below : List (SetupWork ν)) : RememberedName τ ν :=
  match call.next s.storage with
  | (storage, some rest) =>
    { s with storage := storage }.setTab tab
      { s.tab tab with setups := .saving number rest :: below }
  | (storage, none) => { s with storage := storage }.remembered tab number below

/-- One storage operation of another call of the store. -/
def operateRun (s : RememberedName τ ν) (tab : τ) (run : StoreRun ν) : RememberedName τ ν :=
  match run.call.next s.storage with
  | (storage, some rest) =>
    { s with storage := storage }.setTab tab { s.tab tab with running := some ⟨run.use, rest⟩ }
  | (storage, none) => { s with storage := storage }.returned tab run.use

/-- One storage operation of the innermost call of the store that is running in the tab. -/
def operate (s : RememberedName τ ν) (tab : τ) : Option (RememberedName τ ν) :=
  match (s.tab tab).setups with
  | .saving number call :: below => some (s.operateSetup tab number call below)
  | .looking _ :: _ => none
  | [] => (s.tab tab).running.map (s.operateRun tab)

/-- `setup()`, from where it registers its session to the first storage operation of `#remember`. -/
def rememberIn (s : RememberedName τ ν) (name : ν) (tab : τ) (remember : Bool)
    (below : List (SetupWork ν)) : RememberedName τ ν :=
  let made : NameTab ν := { s.tab tab with session := some s.next, setups := below }
  { s.setTab tab (made.remember name s.next remember) with next := s.next + 1 }

/-- `release()`, up to its first wait. -/
def releaseIn (s : RememberedName τ ν) (tab : τ) (forget : Bool) : RememberedName τ ν :=
  match (s.tab tab).session with
  | some _ =>
    { s.setTab tab ((s.tab tab).releaseSession s.next forget) with next := s.next + 1 }
  | none => s.setTab tab ((s.tab tab).releaseUnset forget)

/-- `#forgetAsAsked`, up to its first wait. -/
def forgetIn (s : RememberedName τ ν) (tab : τ) (forget : Bool) : RememberedName τ ν :=
  if forget then { s.setTab tab ((s.tab tab).leave s.next true) with next := s.next + 1 } else s

/-- The rest of a call, once it has waited. -/
def goOn (s : RememberedName τ ν) (tab : τ) (call : NameCall) : RememberedName τ ν :=
  let s := s.setTab tab { s.tab tab with waiting := (s.tab tab).waiting.erase call }
  match call with
  | .setup remember _ =>
    s.setTab tab ({ s.tab tab with isSetUpDuringRelease := false }.look remember)
  | .release number =>
    s.setTab tab { s.tab tab with
      releasing := if (s.tab tab).releasing = some number then none else (s.tab tab).releasing }
  | .releaseAgain forget _ => s.releaseIn tab forget
  | .forgetAsAsked forget _ => s.forgetIn tab forget

/-- The callback of a hold's request, up to its first wait. -/
def enterHold (s : RememberedName τ ν) (name : ν) (tab : τ) (number : ℕ) (isStopped : Bool) :
    RememberedName τ ν :=
  if isStopped then s.setTab tab ((s.tab tab).setHold number (some ⟨.returned, true⟩))
  else if (s.tab tab).session = some number then
    s.setTab tab { (s.tab tab).setHold number (some ⟨.saving, false⟩) with
      running := some ⟨.hold number, .save name⟩ }
  else s.setTab tab ((s.tab tab).setHold number (some ⟨.holding false, false⟩))

/-- What the event makes of the tabs, where it can happen. -/
def step (name : ν) (s : RememberedName τ ν) : PersistenceEvent τ → Option (RememberedName τ ν)
  | .setup tab remember =>
    if (s.tab tab).mayCall then some (s.setTab tab ((s.tab tab).setup remember)) else none
  | .sessionMade tab =>
    match (s.tab tab).setups with
    | .looking remember :: below => some (s.rememberIn name tab remember below)
    | _ => none
  | .release tab forget => if (s.tab tab).mayCall then some (s.releaseIn tab forget) else none
  | .releaseFinished tab number =>
    if (s.tab tab).isIdle && (s.tab tab).finishing.contains number &&
        ((s.tab tab).leavings number).isNone then
      some (s.setTab tab { s.tab tab with finishing := (s.tab tab).finishing.erase number })
    else none
  | .goesOn tab call =>
    if (s.tab tab).isIdle && (s.tab tab).waiting.contains call && !(s.tab tab).waitsFor call then
      some (s.goOn tab call)
    else none
  | .resolved tab =>
    if (s.tab tab).isIdle && (s.tab tab).session.isSome &&
        (s.tab tab).session == (s.tab tab).registered then
      some (s.setTab tab { s.tab tab with running := some ⟨.resolution, .save name⟩ })
    else none
  | .operation tab => s.operate tab
  | .holdGranted tab number =>
    match (s.tab tab).holds number with
    | some ⟨.requested, isStopped⟩ =>
      (s.lock.grant (.hold tab number)).map fun lock =>
        (s.setTab tab ((s.tab tab).setHold number (some ⟨.granted, isStopped⟩))).setLock lock
    | _ => none
  | .holdEntered tab number =>
    match (s.tab tab).holds number with
    | some ⟨.granted, isStopped⟩ =>
      if (s.tab tab).isIdle then some (s.enterHold name tab number isStopped) else none
    | _ => none
  | .holdWithdrawn tab number =>
    match (s.tab tab).holds number with
    | some ⟨.requested, true⟩ =>
      some ((s.setTab tab ((s.tab tab).setHold number none)).setLock
        (s.lock.withdraw (.hold tab number)))
    | _ => none
  | .holdRefused tab number =>
    match (s.tab tab).holds number with
    | some ⟨.requested, isStopped⟩ =>
      some ((s.setTab tab
          ((s.tab tab).setHold number (if isStopped then none else some ⟨.refused, false⟩))).setLock
        (s.lock.withdraw (.hold tab number)))
    | _ => none
  | .holdRetried tab number =>
    match (s.tab tab).holds number with
    | some ⟨.refused, false⟩ => if (s.tab tab).isIdle then some (s.start tab number) else none
    | _ => none
  | .holdLetGo tab number =>
    match (s.tab tab).holds number with
    | some ⟨.holding _, true⟩ | some ⟨.returned, _⟩ =>
      some ((s.setTab tab ((s.tab tab).setHold number none)).setLock
        (s.lock.letGo (.hold tab number)))
    | _ => none
  | .letGoAwaited tab number =>
    match (s.tab tab).leavings number with
    | some ⟨hold, isForgetting, .lettingGo⟩ =>
      if (s.tab tab).isIdle && (hold.bind (s.tab tab).holds).isNone then
        some (s.setTab tab ((s.tab tab).setLeaving number
          (if isForgetting then some ⟨hold, true, .asking 0⟩ else none)))
      else none
    | _ => none
  | .forgetAnswered tab number isGranted =>
    match (s.tab tab).leavings number with
    | some ⟨hold, isForgetting, .asking attempt⟩ =>
      if isGranted then
        (s.lock.grantIfAvailable ⟨.forget tab number, true⟩).map fun lock =>
          (s.setTab tab ((s.tab tab).setLeaving number
            (some ⟨hold, isForgetting, .granted⟩))).setLock lock
      else some (s.setTab tab
        ((s.tab tab).setLeaving number (some ⟨hold, isForgetting, .refused attempt⟩)))
    | _ => none
  | .forgetEntered tab number =>
    match (s.tab tab).leavings number with
    | some ⟨hold, isForgetting, .granted⟩ =>
      if (s.tab tab).isIdle then
        some (s.setTab tab
            { (s.tab tab).setLeaving number (some ⟨hold, isForgetting, .removing⟩) with
          running := some ⟨.forget number, .remove name⟩ })
      else none
    | _ => none
  | .forgetLetGo tab number =>
    match (s.tab tab).leavings number with
    | some ⟨_, _, .removed⟩ =>
      some ((s.setTab tab ((s.tab tab).setLeaving number none)).setLock
        (s.lock.letGo (.forget tab number)))
    | _ => none
  | .forgetFailed tab number =>
    match (s.tab tab).leavings number with
    | some ⟨_, _, .asking _⟩ | some ⟨_, _, .refused _⟩ =>
      some (s.setTab tab ((s.tab tab).setLeaving number none))
    | _ => none
  | .holdersQueried tab number someoneHolds =>
    match (s.tab tab).leavings number with
    | some ⟨hold, isForgetting, .refused attempt⟩ =>
      if attemptsAfterARefusal ≤ attempt || someoneHolds then
        some (s.setTab tab ((s.tab tab).setLeaving number none))
      else if s.lock.held.isEmpty then
        some (s.setTab tab
          ((s.tab tab).setLeaving number (some ⟨hold, isForgetting, .asking (attempt + 1)⟩)))
      else none
    | _ => none
  | .crash tab =>
    if (s.tab tab).isAlive then
      some ((s.setTab tab .crashed).setLock (s.lock.drop fun request => decide (request.tab = tab)))
    else none

/-! ### what leaves the storage alone -/

section

variable (s : RememberedName τ ν) (tab : τ)

omit [DecidableEq ν] in
@[simp, grind =] theorem storage_setTab (entered : NameTab ν) :
    (s.setTab tab entered).storage = s.storage := rfl

omit [DecidableEq τ] [DecidableEq ν] in
@[simp, grind =] theorem storage_setLock (lock : WebLock (PersistenceRequest τ)) :
    (s.setLock lock).storage = s.storage := rfl

omit [DecidableEq ν] in
@[simp, grind =] theorem storage_start (number : ℕ) :
    (s.start tab number).storage = s.storage := rfl

omit [DecidableEq ν] in
@[simp, grind =] theorem storage_rememberIn (name : ν) (remember : Bool)
    (below : List (SetupWork ν)) :
    (s.rememberIn name tab remember below).storage = s.storage := rfl

omit [DecidableEq ν] in
@[simp, grind =] theorem storage_releaseIn (forget : Bool) :
    (s.releaseIn tab forget).storage = s.storage := by
  unfold releaseIn
  split <;> rfl

omit [DecidableEq ν] in
@[simp, grind =] theorem storage_forgetIn (forget : Bool) :
    (s.forgetIn tab forget).storage = s.storage := by
  unfold forgetIn
  split <;> rfl

omit [DecidableEq ν] in
@[simp, grind =] theorem storage_goOn (call : NameCall) :
    (s.goOn tab call).storage = s.storage := by
  unfold goOn
  cases call with
  | setup remember releasing => rfl
  | release releasing => rfl
  | releaseAgain forget releasing => exact storage_releaseIn ..
  | forgetAsAsked forget releasing => exact storage_forgetIn ..

omit [DecidableEq ν] in
@[simp, grind =] theorem storage_enterHold (name : ν) (number : ℕ) (isStopped : Bool) :
    (s.enterHold name tab number isStopped).storage = s.storage := by
  unfold enterHold
  split
  · rfl
  · split <;> rfl

omit [DecidableEq ν] in
@[simp, grind =] theorem storage_remembered (number : ℕ) (below : List (SetupWork ν)) :
    (s.remembered tab number below).storage = s.storage := by
  unfold remembered
  dsimp only
  split <;> rfl

omit [DecidableEq ν] in
@[simp, grind =] theorem storage_returned (use : StoreUse) :
    (s.returned tab use).storage = s.storage := by
  unfold returned
  cases use with
  | hold number => rfl
  | resolution => rfl
  | forget number => rfl

end

theorem storage_operateSetup (s : RememberedName τ ν) (tab : τ) (number : ℕ) (call : StoreCall ν)
    (below : List (SetupWork ν)) :
    (s.operateSetup tab number call below).storage = (call.next s.storage).1 := by
  unfold operateSetup
  cases call.next s.storage with
  | mk storage rest =>
    cases rest with
    | some rest => rfl
    | none => exact storage_remembered ..

theorem storage_operateRun (s : RememberedName τ ν) (tab : τ) (run : StoreRun ν) :
    (s.operateRun tab run).storage = (run.call.next s.storage).1 := by
  unfold operateRun
  cases run.call.next s.storage with
  | mk storage rest =>
    cases rest with
    | some rest => rfl
    | none => exact storage_returned ..

/-- An operation is one of the call of the store that is under way. -/
theorem storage_of_operate {s s' : RememberedName τ ν} {tab : τ} (h : s.operate tab = some s') :
    ∃ call, (s.tab tab).storeCall = some call ∧ s'.storage = (call.next s.storage).1 := by
  unfold operate at h
  split at h
  · next number call below hsetups =>
    obtain rfl := Option.some.inj h
    exact ⟨call, by simp [NameTab.storeCall, hsetups], storage_operateSetup ..⟩
  · cases h
  · next hsetups =>
    obtain ⟨run, hrun, rfl⟩ := Option.map_eq_some_iff.mp h
    exact ⟨run.call, by simp [NameTab.storeCall, hsetups, hrun], storage_operateRun ..⟩

/-- Only the calls of the store change the storage. -/
theorem storage_of_step {name : ν} {s s' : RememberedName τ ν} {event : PersistenceEvent τ}
    (hstep : step name s event = some s') (hevent : ∀ tab, event ≠ .operation tab) :
    s'.storage = s.storage := by
  cases event with
  | operation tab => exact absurd rfl (hevent tab)
  | holdGranted tab number =>
    simp only [step] at hstep
    split at hstep
    · obtain ⟨lock, -, rfl⟩ := Option.map_eq_some_iff.mp hstep
      rfl
    · cases hstep
  | forgetAnswered tab number isGranted =>
    simp only [step] at hstep
    split at hstep
    · split at hstep
      · obtain ⟨lock, -, rfl⟩ := Option.map_eq_some_iff.mp hstep
        rfl
      · cases hstep
        rfl
    · cases hstep
  | _ => grind [step]

/-! ### which calls of the store are started -/

end RememberedName

/-- A call of the store that has not returned. -/
def NameTab.IsCalling (tab : NameTab ν) (call : StoreCall ν) : Prop :=
  (∃ use, tab.running = some ⟨use, call⟩) ∨ ∃ number, .saving number call ∈ tab.setups

theorem NameTab.isCalling_of_storeCall {tab : NameTab ν} {call : StoreCall ν}
    (hcall : tab.storeCall = some call) : tab.IsCalling call := by
  unfold NameTab.storeCall at hcall
  split at hcall
  · obtain ⟨⟨use, called⟩, hrun, rfl⟩ := Option.map_eq_some_iff.mp hcall
    exact .inl ⟨use, hrun⟩
  · cases hcall
  · next number called below hsetups =>
    obtain rfl := Option.some.inj hcall
    exact .inr ⟨number, by rw [hsetups]; exact List.mem_cons_self⟩

namespace RememberedName

variable [DecidableEq τ] [DecidableEq ν]

section

variable (s : RememberedName τ ν) (tab t : τ)

omit [DecidableEq ν] in
@[grind =] theorem tab_setTab (entered : NameTab ν) :
    (s.setTab tab entered).tab t = if t = tab then entered else s.tab t := Function.update_apply ..

omit [DecidableEq τ] [DecidableEq ν] in
@[grind =] theorem tab_setLock (lock : WebLock (PersistenceRequest τ)) :
    (s.setLock lock).tab t = s.tab t := rfl

omit [DecidableEq ν] in
@[grind =] theorem running_start (number : ℕ) :
    ((s.start tab number).tab t).running = (s.tab t).running := by
  unfold start
  grind

omit [DecidableEq ν] in
@[grind =] theorem setups_start (number : ℕ) :
    ((s.start tab number).tab t).setups = (s.tab t).setups := by
  unfold start
  grind

omit [DecidableEq ν] in
@[grind =] theorem running_releaseIn (forget : Bool) :
    ((s.releaseIn tab forget).tab t).running = (s.tab t).running := by
  unfold releaseIn
  split
  · show ((s.setTab tab _).tab t).running = _
    grind [NameTab.releaseSession]
  · grind [NameTab.releaseUnset]

omit [DecidableEq ν] in
@[grind =] theorem setups_releaseIn (forget : Bool) :
    ((s.releaseIn tab forget).tab t).setups = (s.tab t).setups := by
  unfold releaseIn
  split
  · show ((s.setTab tab _).tab t).setups = _
    grind [NameTab.releaseSession]
  · grind [NameTab.releaseUnset]

omit [DecidableEq ν] in
@[grind =] theorem running_forgetIn (forget : Bool) :
    ((s.forgetIn tab forget).tab t).running = (s.tab t).running := by
  unfold forgetIn
  split
  · show ((s.setTab tab _).tab t).running = _
    grind
  · rfl

omit [DecidableEq ν] in
@[grind =] theorem setups_forgetIn (forget : Bool) :
    ((s.forgetIn tab forget).tab t).setups = (s.tab t).setups := by
  unfold forgetIn
  split
  · show ((s.setTab tab _).tab t).setups = _
    grind
  · rfl

end

omit [DecidableEq ν] in
theorem calling_remembered {s : RememberedName τ ν} {tab t : τ} {number : ℕ}
    {below : List (SetupWork ν)} {call : StoreCall ν}
    (hcall : ((s.remembered tab number below).tab t).IsCalling call)
    (hbelow : ∀ work ∈ below, work ∈ (s.tab tab).setups) : (s.tab t).IsCalling call := by
  unfold remembered at hcall
  grind [NameTab.IsCalling]

omit [DecidableEq ν] in
theorem calling_returned {s : RememberedName τ ν} {tab t : τ} {use : StoreUse} {call : StoreCall ν}
    (hcall : ((s.returned tab use).tab t).IsCalling call) : (s.tab t).IsCalling call := by
  unfold returned at hcall
  cases use with
  | hold number => grind [NameTab.IsCalling]
  | resolution => grind [NameTab.IsCalling]
  | forget number => grind [NameTab.IsCalling]

omit [DecidableEq ν] in
theorem calling_rememberIn {s : RememberedName τ ν} {name : ν} {tab t : τ} {remember : Bool}
    {below : List (SetupWork ν)} {call : StoreCall ν}
    (hsetups : (s.tab tab).setups = .looking remember :: below)
    (hcall : ((s.rememberIn name tab remember below).tab t).IsCalling call) :
    (s.tab t).IsCalling call ∨ call = .save name := by
  replace hcall : ((s.setTab tab (NameTab.remember _ name s.next remember)).tab t).IsCalling call :=
    hcall
  rw [tab_setTab] at hcall
  split at hcall
  · grind [NameTab.IsCalling, NameTab.remember]
  · exact .inl hcall

omit [DecidableEq ν] in
theorem calling_goOn {s : RememberedName τ ν} {tab t : τ} {waited : NameCall} {call : StoreCall ν}
    (hcall : ((s.goOn tab waited).tab t).IsCalling call) : (s.tab t).IsCalling call := by
  unfold goOn at hcall
  cases waited with
  | setup remember releasing => grind [NameTab.IsCalling, NameTab.look]
  | release releasing => grind [NameTab.IsCalling]
  | releaseAgain forget releasing => grind [NameTab.IsCalling]
  | forgetAsAsked forget releasing => grind [NameTab.IsCalling]

/-- After a storage operation what is left of the call is under way, and nothing else that was not
before. -/
theorem calling_of_operate {s s' : RememberedName τ ν} {tab t : τ} {call : StoreCall ν}
    (hstep : s.operate tab = some s') (hcall : (s'.tab t).IsCalling call) :
    (s.tab t).IsCalling call ∨
      ∃ called, (s.tab tab).IsCalling called ∧ (called.next s.storage).2 = some call := by
  unfold operate at hstep
  split at hstep
  · next number called below hsetups =>
    have hcalled : (s.tab tab).IsCalling called := .inr ⟨number, by simp [hsetups]⟩
    obtain rfl := Option.some.inj hstep
    unfold operateSetup at hcall
    split at hcall
    · next storage rest hnext => grind [NameTab.IsCalling]
    · next storage hnext =>
      refine .inl (calling_remembered (s := { s with storage := storage }) hcall
        fun work hwork => ?_)
      show work ∈ (s.tab tab).setups
      rw [hsetups]
      exact List.mem_cons_of_mem _ hwork
  · cases hstep
  · obtain ⟨⟨use, called⟩, hrun, rfl⟩ := Option.map_eq_some_iff.mp hstep
    have hcalled : (s.tab tab).IsCalling called := .inl ⟨use, hrun⟩
    unfold operateRun at hcall
    split at hcall
    · next storage rest hnext => grind [NameTab.IsCalling]
    · next storage hnext => exact .inl (calling_returned (s := { s with storage := storage }) hcall)

/-- A call of the store that was not under way before is a whole save, a whole removal, or what is
left of the call that did an operation. -/
theorem calling_of_step {name : ν} {s s' : RememberedName τ ν} {event : PersistenceEvent τ} {t : τ}
    {call : StoreCall ν} (hstep : step name s event = some s') (hcall : (s'.tab t).IsCalling call) :
    (s.tab t).IsCalling call ∨ call = .save name ∨ call = .remove name ∨
      ∃ tab called, (s.tab tab).IsCalling called ∧ (called.next s.storage).2 = some call := by
  cases event with
  | operation tab =>
    exact (calling_of_operate hstep hcall).imp_right fun h => .inr (.inr ⟨tab, h⟩)
  | holdGranted tab number =>
    simp only [step] at hstep
    split at hstep
    · obtain ⟨lock, -, rfl⟩ := Option.map_eq_some_iff.mp hstep
      grind [NameTab.IsCalling]
    · cases hstep
  | forgetAnswered tab number isGranted =>
    simp only [step] at hstep
    split at hstep
    · split at hstep
      · obtain ⟨lock, -, rfl⟩ := Option.map_eq_some_iff.mp hstep
        grind [NameTab.IsCalling]
      · grind [NameTab.IsCalling]
    · cases hstep
  | setup tab remember => grind [step, NameTab.IsCalling, NameTab.setup, NameTab.look]
  | sessionMade tab =>
    simp only [step] at hstep
    split at hstep
    · next remember below hsetups =>
      obtain rfl := Option.some.inj hstep
      exact (calling_rememberIn hsetups hcall).imp_right .inl
    · cases hstep
  | goesOn tab waited =>
    simp only [step, Option.ite_none_right_eq_some] at hstep
    obtain ⟨-, hstep⟩ := hstep
    obtain rfl := Option.some.inj hstep
    exact .inl (calling_goOn hcall)
  | crash tab => grind [step, NameTab.IsCalling, NameTab.crashed, NameTab.fresh]
  | holdEntered tab number => grind [step, NameTab.IsCalling, enterHold]
  | _ => grind [step, NameTab.IsCalling]

/-- The tabs over this storage, with nothing set up in any of them. -/
def system (name : ν) (storage : KeyValueStorage ν) :
    TransitionSystem (RememberedName τ ν) (PersistenceEvent τ) where
  init := ⟨storage, .free, fun _ => .fresh, 0⟩
  step := step name

end RememberedName

end SerialBroker
