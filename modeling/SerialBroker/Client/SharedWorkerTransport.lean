import Mathlib.Data.List.Range
import Mathlib.Tactic.Basic
import SerialBroker.Lib.TransitionSystem

/-!
# What a tab says to its worker: hello first, order kept

`SharedWorkerTransport` of `client/transport/shared-worker-transport.ts`, as far as it decides what
is posted on which port: the messages that wait for the context's lock, the hellos, and the workers
that are given up on and replaced. A step runs until the code returns to the event loop or calls the
application, whose logger and callbacks may call `attach`, `detach`, `send` and `close` in turn;
what the interrupted method still has to do is kept in `pending`.

The log of a port holds the calls of `postMessage`. A message that cannot be cloned makes the call
throw, which is reported to the application. The messages other than hello are numbered as they are
sent.
-/

namespace SerialBroker

/-- A message on its way to the worker. -/
inductive WorkerMessage
  | hello (configNames : List String)
  | other (number : ℕ) (isCloneable : Bool)
  deriving DecidableEq

namespace WorkerMessage

def configNames? : WorkerMessage → Option (List String)
  | .hello configNames => some configNames
  | .other .. => none

def number? : WorkerMessage → Option ℕ
  | .hello _ => none
  | .other number _ => some number

end WorkerMessage

/-- `Phase`. -/
inductive WorkerPhase
  | starting
  | ready
  | restarting
  | otherVersion
  deriving DecidableEq

/-- What a method does once the application, which it called, has returned. -/
inductive TransportRest
  /-- `onFailed` of the context's lock, which logged the refusal. -/
  | sayHelloFirst
  /-- The loop of `#sayHelloFirst`, which reported a message that cannot be cloned. -/
  | flush (unsent : List WorkerMessage)
  /-- `#handshakeMissed` and `#workerEnded`, which reported the loss. -/
  | reconnect
  /-- `#reconnect`, which logged that a new worker was started. -/
  | sendHello
  /-- `#receive`, which reported a message in another version. -/
  | workerRunsOtherVersion
  /-- `#workerRunsOtherVersion`, which called `onLoadFailed`. -/
  | useNoWorker
  deriving DecidableEq

inductive TransportEvent
  | attach (configName : String)
  | detach (configName : String)
  | send (isCloneable : Bool)
  | close
  | lockHeld
  | lockRefused
  /-- The handshake deadline, where a new worker may fail to start outright. -/
  | handshakeMissed (isConnectThrown : Bool)
  | workerEnded
  | welcomed
  /-- The worker says something in another protocol version. -/
  | otherVersion
  /-- The application returns to the method that called it. -/
  | goOn (isConnectThrown : Bool)
  deriving DecidableEq

/-- The transport, with the logs of the ports it replaced and of its current one. -/
structure SharedWorkerTransport where
  attached : List String
  replaced : List (List WorkerMessage)
  port : List WorkerMessage
  phase : WorkerPhase
  unsent : Option (List WorkerMessage)
  isClosed : Bool
  isHandshakeRunning : Bool
  isWatching : Bool
  pending : Option TransportRest
  /-- How many messages other than hello were sent, and how many of them before the lock's
  answer. -/
  sends : ℕ
  early : ℕ
  deriving DecidableEq

namespace SharedWorkerTransport

def init : SharedWorkerTransport := ⟨[], [], [], .starting, some [], false, true, false, none, 0, 0⟩

/-- `send`, the failure of a call aside. -/
def send (s : SharedWorkerTransport) (message : WorkerMessage) : SharedWorkerTransport :=
  if s.isClosed then s
  else
    match s.unsent with
    | some unsent => { s with unsent := some (unsent ++ [message]) }
    | none => { s with port := s.port ++ [message] }

/-- `#sendHello`. -/
def sendHello (s : SharedWorkerTransport) : SharedWorkerTransport := s.send (.hello s.attached)

def attach (s : SharedWorkerTransport) (configName : String) : SharedWorkerTransport :=
  { s with
    attached := if configName ∈ s.attached then s.attached
      else s.attached ++ [configName] }.sendHello

def detach (s : SharedWorkerTransport) (configName : String) : SharedWorkerTransport :=
  { s with attached := s.attached.filter (· ≠ configName) }.sendHello

/-- `send` as the client calls it, with the next number. -/
def sendOther (s : SharedWorkerTransport) (isCloneable : Bool) : SharedWorkerTransport :=
  if s.isClosed then s
  else
    { s.send (.other s.sends isCloneable) with
      sends := s.sends + 1
      early := if s.unsent.isSome then s.early + 1 else s.early }

/-- The loop of `#sayHelloFirst`. -/
def flush (s : SharedWorkerTransport) : List WorkerMessage → SharedWorkerTransport
  | [] => s
  | .hello _ :: rest => flush s rest
  | .other number isCloneable :: rest =>
    if isCloneable || s.isClosed then flush (s.send (.other number isCloneable)) rest
    else { s.send (.other number isCloneable) with pending := some (.flush rest) }

/-- `#sayHelloFirst`. -/
def sayHelloFirst (s : SharedWorkerTransport) : SharedWorkerTransport :=
  match s.unsent with
  | none => s
  | some unsent => { s with unsent := none }.sendHello.flush unsent

/-- `#reconnect`, until it logs. -/
def reconnect (s : SharedWorkerTransport) (isConnectThrown : Bool) : SharedWorkerTransport :=
  if s.isClosed then s
  else if isConnectThrown then { s with isWatching := false, isHandshakeRunning := true }
  else
    { s with
      isWatching := false
      isHandshakeRunning := true
      replaced := s.replaced ++ [s.port]
      port := []
      pending := some .sendHello }

/-- The end of `#workerRunsOtherVersion`. -/
def useNoWorker (s : SharedWorkerTransport) : SharedWorkerTransport :=
  if s.isClosed then s else
    { s with phase := .otherVersion, isHandshakeRunning := false, isWatching := false }

/-- `#workerRunsOtherVersion`. -/
def workerRunsOtherVersion (hasStartup : Bool) (s : SharedWorkerTransport) :
    SharedWorkerTransport :=
  if s.isClosed || decide (s.phase = .otherVersion) then s
  else if decide (s.phase = .starting) && hasStartup then { s with pending := some .useNoWorker }
  else s.useNoWorker

/-- `#handshakeMissed`, until the application has heard of the loss. -/
def handshakeMissed (hasStartup : Bool) (s : SharedWorkerTransport) (isConnectThrown : Bool) :
    SharedWorkerTransport :=
  match s.phase with
  | .ready | .otherVersion => s
  | .starting =>
    if hasStartup then s else { s with phase := .restarting, pending := some .reconnect }
  | .restarting => s.reconnect isConnectThrown

/-- `#welcomed`. -/
def welcomed (s : SharedWorkerTransport) : SharedWorkerTransport :=
  match s.phase with
  | .ready | .otherVersion => s
  | .starting | .restarting =>
    { s with phase := .ready, isHandshakeRunning := false, isWatching := true }

/-- The rest of the interrupted method. -/
def goOn (hasStartup : Bool) (s : SharedWorkerTransport) (isConnectThrown : Bool) :
    TransportRest → SharedWorkerTransport
  | .sayHelloFirst => s.sayHelloFirst
  | .flush unsent => s.flush unsent
  | .reconnect => s.reconnect isConnectThrown
  | .sendHello => s.sendHello
  | .workerRunsOtherVersion => s.workerRunsOtherVersion hasStartup
  | .useNoWorker => s.useNoWorker

/-- The application calls the transport at any time; everything else waits until no method is
running. -/
def step (hasStartup : Bool) (s : SharedWorkerTransport) :
    TransportEvent → Option SharedWorkerTransport
  | .attach configName => some (s.attach configName)
  | .detach configName => some (s.detach configName)
  | .send isCloneable => some (s.sendOther isCloneable)
  | .close => some { s with isClosed := true, isHandshakeRunning := false, isWatching := false }
  | .lockHeld => if s.pending = none ∧ s.isClosed = false then some s.sayHelloFirst else none
  | .lockRefused =>
    if s.pending = none ∧ s.isClosed = false then
      some { s with pending := some .sayHelloFirst }
    else none
  | .handshakeMissed isConnectThrown =>
    if s.pending = none ∧ s.isHandshakeRunning = true then
      some ({ s with isHandshakeRunning := false }.handshakeMissed hasStartup isConnectThrown)
    else none
  | .workerEnded =>
    if s.pending = none ∧ s.isWatching = true then
      some { s with phase := .restarting, pending := some .reconnect }
    else none
  | .welcomed => if s.pending = none ∧ s.isClosed = false then some s.welcomed else none
  | .otherVersion =>
    if s.pending = none ∧ s.isClosed = false then
      some { s with pending := some .workerRunsOtherVersion }
    else none
  | .goOn isConnectThrown =>
    s.pending.map fun rest => { s with pending := none }.goOn hasStartup isConnectThrown rest

/-- Everything posted so far, on the ports in the order of their workers. -/
def posted (s : SharedWorkerTransport) : List WorkerMessage := s.replaced.flatten ++ s.port

/-- What waits for the lock's answer, or for the application while it hears of a message that cannot
be cloned. -/
def waiting (s : SharedWorkerTransport) : List WorkerMessage :=
  match s.unsent, s.pending with
  | some unsent, _ => unsent
  | none, some (.flush unsent) => unsent
  | none, _ => []

/-- The numbers of the messages posted, of those sent before the lock's answer. -/
def postedEarly (s : SharedWorkerTransport) : List ℕ :=
  (s.posted.filterMap WorkerMessage.number?).filter (· < s.early)

/-- Every port hears a hello first; the last hello on the current port, which has one unless
`#reconnect` has yet to say it, names what is attached; and what was sent before the lock's answer
is posted once each and in order, or still waits. -/
structure KeepsOrder (s : SharedWorkerTransport) : Prop where
  helloFirst : ∀ port ∈ s.replaced ++ [s.port], port = [] ∨
    ∃ configNames rest, port = .hello configNames :: rest
  lastHello : s.unsent = none →
    (s.port.filterMap WorkerMessage.configNames?).getLast? = some s.attached ∨
      (s.port = [] ∧ s.pending = some .sendHello)
  inOrder : s.postedEarly ++ s.waiting.filterMap WorkerMessage.number? = List.range s.early

/-- The condition: nothing but a hello is sent while the lock is answered and nothing was posted on
the current port. -/
def sendsAfterHello (s : SharedWorkerTransport) : TransportEvent → Bool
  | .send _ => s.isClosed || s.unsent.isSome || !s.port.isEmpty
  | _ => true

end SharedWorkerTransport

/-- A transport, which whoever created it hears about through a `WorkerStartup` or not. -/
def sharedWorkerTransport (hasStartup : Bool) :
    TransitionSystem SharedWorkerTransport TransportEvent where
  init := .init
  step := SharedWorkerTransport.step hasStartup

namespace SharedWorkerTransport

variable {hasStartup : Bool} {s s' : SharedWorkerTransport} {numbers : List ℕ}

/-! ### the record of the posts -/

/-- What a post leaves as it should be, where `numbers` are the early messages that are yet to be
posted. -/
structure Fits (s : SharedWorkerTransport) (numbers : List ℕ) : Prop where
  helloFirst : ∀ port ∈ s.replaced ++ [s.port], port = [] ∨
    ∃ configNames rest, port = .hello configNames :: rest
  inOrder : s.postedEarly ++ numbers = List.range s.early
  silent : s.unsent.isSome = true → ∀ port ∈ s.replaced ++ [s.port], port = []
  unanswered : s.unsent.isSome = true → s.sends = s.early
  early_le : s.early ≤ s.sends

/-- Nothing else of the state matters to it. -/
theorem Fits.of_same (h : Fits s numbers)
    (hsame : (s'.replaced, s'.port, s'.unsent.isSome, s'.sends, s'.early) = (s.replaced, s.port,
      s.unsent.isSome, s.sends, s.early)) :
    Fits s' numbers := by
  simp only [Prod.mk.injEq] at hsame
  obtain ⟨hreplaced, hport, hunsent, hsends, hearly⟩ := hsame
  constructor
  · rw [hreplaced, hport]
    exact h.helloFirst
  · rw [postedEarly, posted, hreplaced, hport, hearly]
    exact h.inOrder
  · rw [hreplaced, hport, hunsent]
    exact h.silent
  · rw [hunsent, hsends, hearly]
    exact h.unanswered
  · rw [hsends, hearly]
    exact h.early_le

/-- A post is a hello, or follows one; an early message is the first of those to be posted. -/
theorem Fits.post {message : WorkerMessage}
    (h : Fits s (message.number?.toList.filter (· < s.early) ++ numbers))
    (hunsent : s.unsent = none)
    (hfirst : s.port = [] → ∃ configNames, message = .hello configNames) :
    Fits { s with port := s.port ++ [message] } numbers where
  helloFirst port hport := by
    rcases List.mem_append.mp hport with hold | hnew
    · exact h.helloFirst port (List.mem_append_left _ hold)
    · obtain rfl := List.mem_singleton.mp hnew
      refine .inr ?_
      by_cases hempty : s.port = []
      · obtain ⟨configNames, rfl⟩ := hfirst hempty
        exact ⟨configNames, [], by rw [hempty]; rfl⟩
      · obtain ⟨configNames, rest, hhello⟩ := (h.helloFirst s.port (by simp)).resolve_left hempty
        exact ⟨configNames, rest ++ [message], by rw [hhello]; rfl⟩
  inOrder := by
    have hposted : (s.replaced.flatten ++ (s.port ++ [message])).filterMap WorkerMessage.number? =
        s.posted.filterMap WorkerMessage.number? ++ message.number?.toList := by
      rw [← List.append_assoc, List.filterMap_append, posted]
      cases hnumber : message.number? <;> simp [hnumber]
    simp only [postedEarly, posted, hposted, List.filter_append, List.append_assoc]
    exact h.inOrder
  silent hsome := by simp [hunsent] at hsome
  unanswered hsome := by simp [hunsent] at hsome
  early_le := h.early_le

theorem Fits.post_hello (h : Fits s numbers) (hunsent : s.unsent = none)
    (configNames : List String) :
    Fits { s with port := s.port ++ [.hello configNames] } numbers :=
  Fits.post h hunsent fun _ => ⟨configNames, rfl⟩

/-- The next early message is posted. -/
theorem Fits.post_early {number : ℕ} (isCloneable : Bool) (h : Fits s (number :: numbers))
    (hunsent : s.unsent = none)
    (hport : s.port ≠ []) :
    Fits { s with port := s.port ++ [.other number isCloneable] } numbers := by
  have hearly : number < s.early := by
    rw [← List.mem_range, ← h.inOrder]
    simp
  refine Fits.post ?_ hunsent fun hempty => absurd hempty hport
  simpa [WorkerMessage.number?, hearly] using h

/-- A message sent after the lock's answer is posted at once. -/
theorem Fits.post_late (isCloneable : Bool) (h : Fits s numbers) (hunsent : s.unsent = none)
    (hport : s.port ≠ []) :
    Fits { s with port := s.port ++ [.other s.sends isCloneable] } numbers := by
  have hlate : ¬s.sends < s.early := Nat.not_lt.mpr h.early_le
  refine Fits.post ?_ hunsent fun hempty => absurd hempty hport
  simpa [WorkerMessage.number?, hlate] using h

theorem Fits.sendHello (h : Fits s numbers) : Fits s.sendHello numbers := by
  rw [SharedWorkerTransport.sendHello, send]
  split
  · exact h
  · split
    case h_1 unsent hunsent => exact h.of_same (by simp [hunsent])
    case h_2 hunsent => exact h.post_hello hunsent s.attached

/-- A message sent before the lock's answer waits behind all others. -/
theorem Fits.wait (h : Fits s numbers) (hunsent : s.unsent.isSome = true) :
    Fits { s with sends := s.sends + 1, early := s.early + 1 } (numbers ++ [s.sends]) where
  helloFirst := h.helloFirst
  inOrder := by
    have hnothing : s.posted = [] := by
      rw [posted, List.append_eq_nil_iff, List.flatten_eq_nil_iff]
      exact ⟨fun port hport => h.silent hunsent port (List.mem_append_left _ hport),
        h.silent hunsent _ (by simp)⟩
    have hall : numbers = List.range s.early := by simpa [postedEarly, hnothing] using h.inOrder
    have hnone : ({ s with
        sends := s.sends + 1, early := s.early + 1 } : SharedWorkerTransport).postedEarly = [] := by
      simp only [posted] at hnothing
      simp [postedEarly, posted, hnothing]
    rw [hnone, hall, h.unanswered hunsent, List.nil_append, List.range_succ]
  silent := h.silent
  unanswered hsome := congrArg (· + 1) (h.unanswered hsome)
  early_le := Nat.succ_le_succ h.early_le

/-- A new worker has heard nothing yet. -/
theorem Fits.replace (h : Fits s numbers) :
    Fits { s with replaced := s.replaced ++ [s.port], port := [] } numbers where
  helloFirst port hport := by
    rcases List.mem_append.mp hport with hold | hnew
    · exact h.helloFirst port hold
    · exact .inl (List.mem_singleton.mp hnew)
  inOrder := by
    have hposted : ({ s with
        replaced := s.replaced ++ [s.port]
        port := [] } : SharedWorkerTransport).posted = s.posted := by
      simp [posted]
    rw [postedEarly, hposted]
    exact h.inOrder
  silent hsome port hport := by
    rcases List.mem_append.mp hport with hold | hnew
    · exact h.silent hsome port hold
    · exact List.mem_singleton.mp hnew
  unanswered := h.unanswered
  early_le := h.early_le

/-! ### what every run keeps -/

/-- The configurations named last on the current port are those attached. -/
def NamesAttached (s : SharedWorkerTransport) : Prop :=
  (s.port.filterMap WorkerMessage.configNames?).getLast? = some s.attached

theorem NamesAttached.port_ne_nil (h : s.NamesAttached) : s.port ≠ [] := by
  intro hempty
  simp [NamesAttached, hempty] at h

/-- What holds of an open transport between two steps. -/
structure Sound (s : SharedWorkerTransport) : Prop where
  fits : s.Fits (s.waiting.filterMap WorkerMessage.number?)
  lastHello : s.unsent = none → s.NamesAttached ∨ (s.port = [] ∧ s.pending = some .sendHello)
  flushing : ∀ rest, s.pending = some (.flush rest) → s.unsent = none

theorem Sound.keepsOrder (h : s.Sound) : s.KeepsOrder :=
  ⟨h.fits.helloFirst, h.lastHello, h.fits.inOrder⟩

theorem waiting_of_not_flush (h : ∀ rest, s.pending ≠ some (.flush rest)) :
    s.waiting = s.unsent.getD [] := by
  rw [waiting]
  split
  case h_1 hunsent => rw [hunsent]; rfl
  case h_2 hflush => exact absurd hflush (h _)
  case h_3 hunsent _ => rw [hunsent]; rfl

theorem not_flush_of_idle (h : s.pending = none) (rest : List WorkerMessage) :
    s.pending ≠ some (.flush rest) := by
  rw [h]
  exact fun hflush => by cases hflush

/-- A step that posts nothing keeps it, where no new hello is awaited. -/
theorem Sound.of_same (h : s.Sound) (hidle : s.pending ≠ some .sendHello)
    (hpending : ∀ rest, s.pending ≠ some (.flush rest))
    (hpending' : ∀ rest, s'.pending ≠ some (.flush rest))
    (hsame : (s'.replaced, s'.port, s'.unsent, s'.sends, s'.early, s'.attached) =
      (s.replaced, s.port, s.unsent, s.sends, s.early, s.attached)) : s'.Sound := by
  simp only [Prod.mk.injEq] at hsame
  obtain ⟨hreplaced, hport, hunsent, hsends, hearly, hattached⟩ := hsame
  refine ⟨?_, fun hnone => ?_, fun rest hflush => absurd hflush (hpending' rest)⟩
  · have hwaiting : s'.waiting = s.waiting := by
      rw [waiting_of_not_flush hpending', waiting_of_not_flush hpending, hunsent]
    rw [hwaiting]
    exact h.fits.of_same (by rw [hreplaced, hport, hunsent, hsends, hearly])
  · rw [hunsent] at hnone
    rw [NamesAttached, hport, hattached]
    exact .inl ((h.lastHello hnone).resolve_right fun hnew => hidle hnew.2)

theorem waiting_sendHello :
    s.sendHello.waiting.filterMap WorkerMessage.number? = s.waiting.filterMap
    WorkerMessage.number? := by
  rw [sendHello, send]
  split
  · rfl
  · split
    case h_1 unsent hunsent => simp [waiting, hunsent, WorkerMessage.number?]
    case h_2 hunsent => rfl

theorem namesAttached_post_hello :
    ({ s with port := s.port ++ [.hello s.attached] } : SharedWorkerTransport).NamesAttached := by
  simp [NamesAttached, WorkerMessage.configNames?]

theorem NamesAttached.post_other {number : ℕ} {isCloneable : Bool} (h : s.NamesAttached) :
    ({ s with port := s.port ++ [.other number isCloneable] } :
      SharedWorkerTransport).NamesAttached := by
  simpa [NamesAttached, WorkerMessage.configNames?] using h

theorem Sound.sendHello (hfits : s.Fits (s.waiting.filterMap WorkerMessage.number?))
    (hopen : s.isClosed = false)
    (hflushing : ∀ rest, s.pending = some (.flush rest) → s.unsent = none) : s.sendHello.Sound := by
  refine ⟨?_, ?_, ?_⟩
  · rw [waiting_sendHello]
    exact hfits.sendHello
  · intro hnone
    rw [SharedWorkerTransport.sendHello, send, if_neg (by simp [hopen])] at hnone ⊢
    split at hnone
    case h_1 => cases hnone
    case h_2 hunsent =>
      rw [hunsent]
      exact .inl namesAttached_post_hello
  · intro rest hflush
    rw [SharedWorkerTransport.sendHello, send, if_neg (by simp [hopen])] at hflush ⊢
    split at hflush
    case h_1 unsent hunsent =>
      have hnone := hflushing rest hflush
      rw [hunsent] at hnone
      cases hnone
    case h_2 hunsent => rw [hunsent]

/-- The queue is emptied behind the hello, however often the application interrupts it. -/
theorem Fits.flush {unsent : List WorkerMessage}
    (h : s.Fits (unsent.filterMap WorkerMessage.number?)) (hopen : s.isClosed = false)
    (hunsent : s.unsent = none) (hpending : s.pending = none) (hlast : s.NamesAttached) :
    (s.flush unsent).Sound := by
  induction unsent generalizing s with
  | nil =>
    have hwaiting : s.waiting = [] := by rw [waiting, hunsent, hpending]
    refine ⟨?_, fun _ => .inl hlast, fun rest hflush => ?_⟩
    · rw [SharedWorkerTransport.flush, hwaiting]
      exact h
    · rw [SharedWorkerTransport.flush, hpending] at hflush
      cases hflush
  | cons message rest ih =>
    cases message with
    | hello configNames => exact ih h hopen hunsent hpending hlast
    | other number isCloneable =>
      have hsend : s.send (.other number isCloneable) =
          { s with port := s.port ++ [.other number isCloneable] } := by
        rw [send, if_neg (by simp [hopen]), hunsent]
      have hposted : Fits { s with
          port := s.port ++ [.other number isCloneable] } (rest.filterMap WorkerMessage.number?) :=
        Fits.post_early isCloneable h hunsent hlast.port_ne_nil
      rw [SharedWorkerTransport.flush, hsend]
      split
      · exact ih hposted hopen hunsent hpending hlast.post_other
      · refine ⟨?_, fun _ => .inl hlast.post_other, fun _ _ => hunsent⟩
        have hwaiting : ({ s with
          port := s.port ++ [.other number isCloneable]
          pending := some (.flush rest) } :
            SharedWorkerTransport).waiting = rest := by simp only [waiting, hunsent]
        rw [hwaiting]
        exact hposted.of_same rfl

theorem Sound.sayHelloFirst (h : s.Sound) (hopen : s.isClosed = false)
    (hpending : s.pending = none) : s.sayHelloFirst.Sound := by
  rw [SharedWorkerTransport.sayHelloFirst]
  split
  case h_1 => exact h
  case h_2 unsent hunsent =>
    have hfits : Fits { s with unsent := none } (unsent.filterMap WorkerMessage.number?) := by
      have hwaiting : s.waiting = unsent := by simp only [waiting, hunsent]
      have hfits := h.fits
      rw [hwaiting] at hfits
      exact ⟨hfits.helloFirst, hfits.inOrder, (fun hsome => by cases hsome),
        (fun hsome => by cases hsome), hfits.early_le⟩
    have hsend : ({ s with unsent := none } : SharedWorkerTransport).sendHello =
        { s with unsent := none, port := s.port ++ [.hello s.attached] } := by
      rw [SharedWorkerTransport.sendHello, send, if_neg (by simp [hopen])]
    rw [hsend]
    exact (hfits.post_hello rfl s.attached).flush hopen rfl hpending
      (namesAttached_post_hello (s := { s with unsent := none }))

theorem Sound.attachChanged (h : s.Sound) (hopen : s.isClosed = false) (attached : List String) :
    ({ s with attached } : SharedWorkerTransport).sendHello.Sound :=
  Sound.sendHello (h.fits.of_same rfl) hopen h.flushing

theorem Sound.sendOther {isCloneable : Bool} (h : s.Sound) (hopen : s.isClosed = false)
    (hcondition : s.sendsAfterHello (.send isCloneable) = true) :
    (s.sendOther isCloneable).Sound := by
  rw [SharedWorkerTransport.sendOther, if_neg (by simp [hopen]), send, if_neg (by simp [hopen])]
  split
  case h_1 unsent hunsent =>
    have hsome : s.unsent.isSome = true := by rw [hunsent]; rfl
    rw [if_pos hsome]
    refine ⟨?_, (fun hnone => by cases hnone), fun rest hflush => ?_⟩
    · have hwaiting : s.waiting = unsent := by simp only [waiting, hunsent]
      have hfits := h.fits.wait hsome
      rw [hwaiting] at hfits
      simp only [waiting, List.filterMap_append]
      exact hfits.of_same (by simp [hunsent])
    · have hnone := h.flushing rest hflush
      rw [hunsent] at hnone
      cases hnone
  case h_2 hunsent =>
    have hport : s.port ≠ [] := by simpa [sendsAfterHello, hopen, hunsent] using hcondition
    have hlast := (h.lastHello hunsent).resolve_right fun hnew => hport hnew.1
    rw [if_neg (by simp [hunsent])]
    refine ⟨?_, fun _ => .inl hlast.post_other, h.flushing⟩
    have hfits := h.fits.post_late isCloneable hunsent hport
    exact ⟨hfits.helloFirst, hfits.inOrder, hfits.silent, fun hsome => by simp [hunsent] at hsome,
      Nat.le_succ_of_le hfits.early_le⟩

theorem Sound.reconnect {isConnectThrown : Bool} (h : s.Sound) (hpending : s.pending = none) :
    (s.reconnect isConnectThrown).Sound := by
  have hwaiting : s.waiting = s.unsent.getD [] := waiting_of_not_flush (not_flush_of_idle hpending)
  rw [SharedWorkerTransport.reconnect]
  split
  · exact h
  · split
    · exact h.of_same (by simp [hpending]) (not_flush_of_idle hpending)
        (not_flush_of_idle hpending) rfl
    · refine ⟨?_, fun _ => .inr ⟨rfl, rfl⟩, fun rest hflush => by cases hflush⟩
      rw [waiting_of_not_flush (fun rest hflush => by cases hflush), ← hwaiting]
      exact h.fits.replace.of_same rfl

/-- What is still to do when the application returns. -/
theorem Sound.goOn {isConnectThrown : Bool} {rest : TransportRest} (h : s.Sound)
    (hopen : s.isClosed = false)
    (hpending : s.pending = some rest) :
    (({ s with pending := none } : SharedWorkerTransport).goOn hasStartup
      isConnectThrown rest).Sound := by
  -- every other rest begins where no method is running
  have hidle : rest ≠ .sendHello → (∀ unsent, rest ≠ .flush unsent) →
      ({ s with pending := none } : SharedWorkerTransport).Sound := by
    intro hhello hflush
    exact h.of_same (by simpa [hpending] using hhello) (by simpa [hpending] using hflush)
      (not_flush_of_idle rfl) rfl
  cases rest with
  | sayHelloFirst => exact (hidle (by simp) (by simp)).sayHelloFirst hopen rfl
  | flush unsent =>
    have hunsent := h.flushing unsent hpending
    have hwaiting : s.waiting = unsent := by simp only [waiting, hunsent, hpending]
    have hfits := h.fits
    rw [hwaiting] at hfits
    have hlast := (h.lastHello hunsent).resolve_right fun hnew => by simp [hpending] at hnew
    exact Fits.flush (s := { s with pending := none }) (hfits.of_same rfl) hopen hunsent rfl hlast
  | reconnect => exact (hidle (by simp) (by simp)).reconnect rfl
  | sendHello =>
    have hwaiting : s.waiting = ({ s with pending := none } : SharedWorkerTransport).waiting := by
      rw [waiting_of_not_flush (by simp [hpending]), waiting_of_not_flush (not_flush_of_idle rfl)]
    have hfits := h.fits
    rw [hwaiting] at hfits
    exact Sound.sendHello (hfits.of_same rfl) hopen fun rest hflush =>
      absurd hflush (not_flush_of_idle rfl rest)
  | workerRunsOtherVersion =>
    have hidle := hidle (by simp) (by simp)
    simp only [SharedWorkerTransport.goOn, workerRunsOtherVersion, useNoWorker]
    split
    · exact hidle
    · split
      · exact hidle.of_same (by simp) (by simp) (by simp) rfl
      · split
        · exact hidle
        · exact hidle.of_same (by simp) (by simp) (by simp) rfl
  | useNoWorker =>
    have hidle := hidle (by simp) (by simp)
    simp only [SharedWorkerTransport.goOn, useNoWorker]
    split
    · exact hidle
    · exact hidle.of_same (by simp) (by simp) (by simp) rfl

/-! ### a closed transport stays closed -/

@[simp] theorem isClosed_send {message : WorkerMessage} :
    (s.send message).isClosed = s.isClosed := by
  rw [send]
  split
  · rfl
  · split <;> rfl

@[simp] theorem isClosed_flush (unsent : List WorkerMessage) :
    (s.flush unsent).isClosed = s.isClosed := by
  induction unsent generalizing s with
  | nil => rfl
  | cons message rest ih =>
    cases message with
    | hello configNames => exact ih
    | other number isCloneable =>
      rw [flush]
      split
      · exact ih.trans isClosed_send
      · exact isClosed_send

@[simp] theorem isClosed_sendHello : s.sendHello.isClosed = s.isClosed := isClosed_send

@[simp] theorem isClosed_sayHelloFirst : s.sayHelloFirst.isClosed = s.isClosed := by
  rw [sayHelloFirst]
  split
  · rfl
  · rw [isClosed_flush, isClosed_sendHello]

@[simp] theorem isClosed_reconnect (isConnectThrown : Bool) :
    (s.reconnect isConnectThrown).isClosed = s.isClosed := by
  rw [reconnect]
  split
  · rfl
  · split <;> rfl

@[simp] theorem isClosed_useNoWorker : s.useNoWorker.isClosed = s.isClosed := by
  rw [useNoWorker]
  split <;> rfl

@[simp] theorem isClosed_workerRunsOtherVersion :
    (s.workerRunsOtherVersion hasStartup).isClosed = s.isClosed := by
  rw [workerRunsOtherVersion]
  split
  · rfl
  · split
    · rfl
    · exact isClosed_useNoWorker

theorem isClosed_handshakeMissed (isConnectThrown : Bool) :
    (s.handshakeMissed hasStartup isConnectThrown).isClosed = s.isClosed := by
  rw [handshakeMissed]
  split
  · rfl
  · rfl
  · split <;> rfl
  · exact isClosed_reconnect isConnectThrown

theorem isClosed_welcomed : s.welcomed.isClosed = s.isClosed := by
  rw [welcomed]
  split <;> rfl

theorem isClosed_goOn (isConnectThrown : Bool) (rest : TransportRest) :
    (s.goOn hasStartup isConnectThrown rest).isClosed = s.isClosed := by
  cases rest <;> simp [goOn]

theorem isClosed_step {event : TransportEvent} (hclosed : s.isClosed = true)
    (h : s.step hasStartup event = some s') :
    s'.isClosed = true := by
  rw [← hclosed]
  cases event with
  | attach configName =>
    obtain rfl := Option.some.inj h
    exact isClosed_sendHello
  | detach configName =>
    obtain rfl := Option.some.inj h
    exact isClosed_sendHello
  | send isCloneable =>
    obtain rfl := Option.some.inj h
    rw [sendOther, if_pos hclosed]
  | close =>
    obtain rfl := Option.some.inj h
    exact hclosed.symm
  | lockHeld =>
    obtain ⟨_, h⟩ := Option.ite_none_right_eq_some.mp h
    obtain rfl := Option.some.inj h
    exact isClosed_sayHelloFirst
  | lockRefused =>
    obtain ⟨_, h⟩ := Option.ite_none_right_eq_some.mp h
    obtain rfl := Option.some.inj h
    rfl
  | handshakeMissed isConnectThrown =>
    obtain ⟨_, h⟩ := Option.ite_none_right_eq_some.mp h
    obtain rfl := Option.some.inj h
    exact isClosed_handshakeMissed isConnectThrown
  | workerEnded =>
    obtain ⟨_, h⟩ := Option.ite_none_right_eq_some.mp h
    obtain rfl := Option.some.inj h
    rfl
  | welcomed =>
    obtain ⟨_, h⟩ := Option.ite_none_right_eq_some.mp h
    obtain rfl := Option.some.inj h
    exact isClosed_welcomed
  | otherVersion =>
    obtain ⟨_, h⟩ := Option.ite_none_right_eq_some.mp h
    obtain rfl := Option.some.inj h
    rfl
  | goOn isConnectThrown =>
    obtain ⟨rest, _, rfl⟩ := Option.map_eq_some_iff.mp h
    exact isClosed_goOn isConnectThrown rest

/-! ### every run -/

theorem Sound.init : SharedWorkerTransport.init.Sound where
  fits :=
    { helloFirst := fun port hport => .inl (List.mem_singleton.mp hport)
      inOrder := rfl
      silent := fun _ port hport => List.mem_singleton.mp hport
      unanswered := fun _ => rfl
      early_le := Nat.le_refl 0 }
  lastHello := fun hnone => by cases hnone
  flushing := fun rest hflush => by cases hflush

theorem Sound.handshakeMissed {isConnectThrown : Bool} (h : s.Sound) (hpending : s.pending = none) :
    (s.handshakeMissed hasStartup isConnectThrown).Sound := by
  rw [SharedWorkerTransport.handshakeMissed]
  split
  · exact h
  · exact h
  · split
    · exact h
    · exact h.of_same (by simp [hpending]) (not_flush_of_idle hpending) (by simp) rfl
  · exact h.reconnect hpending

/-- What a step keeps, which meets the condition. -/
theorem Sound.step {event : TransportEvent} (h : s.Sound) (hopen : s.isClosed = false)
    (hopen' : s'.isClosed = false)
    (hcondition : s.sendsAfterHello event = true) (hstep : s.step hasStartup event = some s') :
    s'.Sound := by
  cases event with
  | attach configName =>
    obtain rfl := Option.some.inj hstep
    exact h.attachChanged hopen _
  | detach configName =>
    obtain rfl := Option.some.inj hstep
    exact h.attachChanged hopen _
  | send isCloneable =>
    obtain rfl := Option.some.inj hstep
    exact h.sendOther hopen hcondition
  | close =>
    obtain rfl := Option.some.inj hstep
    cases hopen'
  | lockHeld =>
    obtain ⟨⟨hpending, _⟩, hstep⟩ := Option.ite_none_right_eq_some.mp hstep
    obtain rfl := Option.some.inj hstep
    exact h.sayHelloFirst hopen hpending
  | lockRefused =>
    obtain ⟨⟨hpending, _⟩, hstep⟩ := Option.ite_none_right_eq_some.mp hstep
    obtain rfl := Option.some.inj hstep
    exact h.of_same (by simp [hpending]) (not_flush_of_idle hpending) (by simp) rfl
  | handshakeMissed isConnectThrown =>
    obtain ⟨⟨hpending, _⟩, hstep⟩ := Option.ite_none_right_eq_some.mp hstep
    obtain rfl := Option.some.inj hstep
    have hstopped : ({ s with isHandshakeRunning := false } : SharedWorkerTransport).Sound :=
      h.of_same (by simp [hpending]) (not_flush_of_idle hpending) (not_flush_of_idle hpending) rfl
    exact hstopped.handshakeMissed hpending
  | workerEnded =>
    obtain ⟨⟨hpending, _⟩, hstep⟩ := Option.ite_none_right_eq_some.mp hstep
    obtain rfl := Option.some.inj hstep
    exact h.of_same (by simp [hpending]) (not_flush_of_idle hpending) (by simp) rfl
  | welcomed =>
    obtain ⟨⟨hpending, _⟩, hstep⟩ := Option.ite_none_right_eq_some.mp hstep
    obtain rfl := Option.some.inj hstep
    rw [SharedWorkerTransport.welcomed]
    split
    · exact h
    · exact h
    · exact h.of_same (by simp [hpending]) (not_flush_of_idle hpending)
        (not_flush_of_idle hpending) rfl
    · exact h.of_same (by simp [hpending]) (not_flush_of_idle hpending)
        (not_flush_of_idle hpending) rfl
  | otherVersion =>
    obtain ⟨⟨hpending, _⟩, hstep⟩ := Option.ite_none_right_eq_some.mp hstep
    obtain rfl := Option.some.inj hstep
    exact h.of_same (by simp [hpending]) (not_flush_of_idle hpending) (by simp) rfl
  | goOn isConnectThrown =>
    obtain ⟨rest, hpending, rfl⟩ := Option.map_eq_some_iff.mp hstep
    exact h.goOn hopen hpending

/-- **Until it is closed, the transport says hello first on every port, names on the current one
what is attached, and posts what waited for the lock's answer once each and in order, if the
application never sends between the start of a new worker and its hello.** -/
theorem hello_first {hasStartup : Bool} {s : SharedWorkerTransport} {events : List TransportEvent}
    (halways : (sharedWorkerTransport hasStartup).Always (fun s event =>
      s.sendsAfterHello event = true) events)
    (hrun : (sharedWorkerTransport hasStartup).run events = some s) (hopen : s.isClosed = false) :
    s.KeepsOrder := by
  have hsound : s.isClosed = false → s.Sound := by
    refine TransitionSystem.run_invariant (P := fun s => s.isClosed = false → s.Sound)
      (fun _ => Sound.init) ?_ halways hrun
    intro s event s' hs hcondition hstep hopen'
    have hopen : s.isClosed = false := by
      by_contra hclosed
      rw [isClosed_step ((Bool.not_eq_false _).mp hclosed) hstep] at hopen'
      cases hopen'
    exact (hs hopen).step hopen hopen' hcondition hstep
  exact (hsound hopen).keepsOrder

/-- Messages wait for the lock, one of which cannot be cloned; the worker ends, and the logger
attaches a configuration and sends on the new port. -/
theorem hello_first_workerReplaced :
    ∃ s, (sharedWorkerTransport false).run
        [.attach "scale", .send true, .send false, .send true, .lockHeld, .detach "scale",
          .goOn false, .welcomed, .workerEnded,
          .goOn false, .attach "printer", .send true, .goOn false] = some s ∧
      s.posted.length = 8 ∧ s.KeepsOrder := by
  obtain ⟨s, hrun, hfacts⟩ := (Option.any_eq_true _ _).mp
    (show ((sharedWorkerTransport false).run
        [.attach "scale", .send true, .send false, .send true, .lockHeld, .detach "scale",
          .goOn false, .welcomed, .workerEnded,
          .goOn false, .attach "printer", .send true, .goOn false]).any
      (fun s => decide (s.posted.length = 8 ∧ s.isClosed = false)) = true by decide)
  obtain ⟨hposted, hopen⟩ := of_decide_eq_true hfacts
  exact ⟨s, hrun, hposted,
    hello_first (TransitionSystem.always_of_alwaysFrom _ (by decide)) hrun hopen⟩

/-- The logger sends when it hears of the new worker: the first message on its port is no hello. -/
theorem other_first_on_new_port :
    ¬∀ hasStartup events s, (sharedWorkerTransport hasStartup).run events = some s →
    s.isClosed = false → s.KeepsOrder := by
  intro h
  obtain ⟨s, hrun, hfacts⟩ := (Option.any_eq_true _ _).mp
    (show ((sharedWorkerTransport false).run [.lockHeld, .welcomed, .workerEnded, .goOn false,
        .send true]).any
      (fun s => decide (s.isClosed = false ∧ s.port = [.other 0 true])) = true by decide)
  obtain ⟨hopen, hport⟩ := of_decide_eq_true hfacts
  rcases (h false _ s hrun hopen).helloFirst s.port (by simp) with hempty
    | ⟨configNames, rest, hhello⟩
  · rw [hport] at hempty
    cases hempty
  · rw [hport] at hhello
    cases hhello

/-- A step that does not meet the condition is always such a send. -/
theorem not_keepsOrder_of_send {event : TransportEvent}
    (hcondition : s.sendsAfterHello event = false)
    (hstep : s.step hasStartup event = some s') : s'.isClosed = false ∧ ¬s'.KeepsOrder := by
  cases event with
  | send isCloneable =>
    obtain ⟨⟨hopen, hunsent⟩, hport⟩ : (s.isClosed = false ∧ s.unsent = none) ∧ s.port = [] := by
      simpa [sendsAfterHello] using hcondition
    obtain rfl := Option.some.inj hstep
    rw [SharedWorkerTransport.sendOther, if_neg (by simp [hopen]), send,
      if_neg (by simp [hopen]), hunsent]
    refine ⟨hopen, fun h => ?_⟩
    rcases h.helloFirst _ (List.mem_append_right _ List.mem_cons_self) with hempty
      | ⟨configNames, rest, hhello⟩
    · simp at hempty
    · simp [hport] at hhello
  | _ => cases hcondition

end SharedWorkerTransport

end SerialBroker
