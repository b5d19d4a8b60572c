import Mathlib.Data.List.Basic
import SerialBroker.Lib.KeyedList
import SerialBroker.Lib.TransitionSystem

/-!
# Dispatch by snapshot

`EventEmitter` of `core/emitter.ts`. An emit walks the listeners that were registered when it
started and calls those that still are, each with a copy of the bytes. What a listener does is left
open: while it runs, or while an error it threw is reported, anything may call the emitter, and an
emit from there runs to its end before the one around it goes on.

A registration is the listener with the number of the object that `add` made for it. The rest of the
snapshot is kept with the registrations of the start, of which the source keeps the listeners alone;
`turns` and `called` record which of them were still in place at their turn, and what was called.
-/

namespace SerialBroker

/-- `SerialBrokerEventName`. -/
inductive EventName
  | onReceive
  | onSend
  | onError
  | onStatusChange
  deriving DecidableEq

/-- A listener with the registration it belongs to. -/
structure ListenerEntry (L : Type) where
  listener : L
  registration : ℕ
  deriving DecidableEq

/-- A call of a listener, and the bytes it was given. -/
structure ListenerCall (L : Type) where
  entry : ListenerEntry L
  data : Option (List UInt8)
  deriving DecidableEq

inductive EmissionPhase
  /-- The loop is about to go to the next listener, or to end. -/
  | looping
  | calling
  /-- `reportListenerError` runs. -/
  | reporting
  deriving DecidableEq

/-- An emit: what is left of its snapshot, and what came of it. -/
structure Emission (L : Type) where
  event : EventName
  /-- The array of the payload, if it carries bytes. -/
  data : Option ℕ
  phase : EmissionPhase
  rest : List (ListenerEntry L)
  emitted : Option (List UInt8)
  snapshot : List (ListenerEntry L)
  turns : List (ListenerEntry L × Bool)
  called : List (ListenerCall L)
  deriving DecidableEq

/-- The emitter, the arrays of bytes there are, and the emits going on, the innermost first. -/
structure EventEmitter (L : Type) where
  listeners : EventName → List (ListenerEntry L)
  made : ℕ
  arrays : List (List UInt8)
  /-- The arrays that listeners were given. -/
  given : List ℕ
  stack : List (Emission L)
  finished : List (Emission L)

inductive EmitterEvent (L : Type)
  | add (event : EventName) (listener : L)
  | remove (event : EventName) (listener : L)
  /-- What `add` returned is called. -/
  | callRemover (event : EventName) (entry : ListenerEntry L)
  | clear
  | emit (event : EventName) (data : Option (List UInt8))
  | emitTo (event : EventName) (listener : L) (data : Option (List UInt8))
  /-- A listener writes into an array it was given. -/
  | write (array : ℕ) (bytes : List UInt8)
  /-- The loop goes on. -/
  | next
  /-- The listener that runs returns, or throws. -/
  | returned (isThrown : Bool)
  | reported
  deriving DecidableEq

namespace EventEmitter

variable {L : Type} [DecidableEq L]

def init : EventEmitter L := ⟨fun _ => [], 0, [], [], [], []⟩

def setListeners (s : EventEmitter L) (event : EventName) (listeners : List (ListenerEntry L)) :
    EventEmitter L :=
  { s with listeners := Function.update s.listeners event listeners }

/-- The registration a listener has for an event. -/
def entryOf (s : EventEmitter L) (event : EventName) (listener : L) : Option (ListenerEntry L) :=
  KeyedList.lookup ListenerEntry.listener listener (s.listeners event)

def add (s : EventEmitter L) (event : EventName) (listener : L) : EventEmitter L :=
  match s.entryOf event listener with
  | some _ => s
  | none =>
    { s.setListeners event (s.listeners event ++ [⟨listener, s.made⟩]) with made := s.made + 1 }

def remove (s : EventEmitter L) (event : EventName) (listener : L) : EventEmitter L :=
  s.setListeners event (KeyedList.erase ListenerEntry.listener listener (s.listeners event))

/-- The function that `add` returned for this registration. -/
def callRemover (s : EventEmitter L) (event : EventName) (entry : ListenerEntry L) :
    EventEmitter L :=
  if s.entryOf event entry.listener = some entry then s.remove event entry.listener else s

def clear (s : EventEmitter L) : EventEmitter L := { s with listeners := fun _ => [] }

/-- A new array for these bytes, if there are any. -/
def allocate (s : EventEmitter L) : Option (List UInt8) → EventEmitter L × Option ℕ
  | none => (s, none)
  | some bytes => ({ s with arrays := s.arrays ++ [bytes] }, some s.arrays.length)

def bytesOf (s : EventEmitter L) (array : Option ℕ) : Option (List UInt8) :=
  array.bind (s.arrays[·]?)

/-- `withOwnBytes` of what is emitted, handed to the listener. -/
def handOut (s : EventEmitter L) (data : Option ℕ) : EventEmitter L :=
  let copied := s.allocate (s.bytesOf data)
  { copied.1 with given := copied.2.toList ++ s.given }

/-- `emit`, up to its loop. -/
def emit (s : EventEmitter L) (event : EventName) (data : Option (List UInt8)) : EventEmitter L :=
  if s.listeners event = [] then s
  else
    let payload := s.allocate data
    { payload.1 with
      stack := ⟨event, payload.2, .looping, s.listeners event, data, s.listeners event, [],
        []⟩ :: s.stack }

/-- `emitTo`, up to the call. -/
def emitTo (s : EventEmitter L) (event : EventName) (listener : L) (data : Option (List UInt8)) :
    EventEmitter L :=
  match s.entryOf event listener with
  | none => s
  | some entry =>
    let payload := s.allocate data
    { payload.1.handOut payload.2 with
      stack := ⟨event, payload.2, .calling, [], data, [entry], [(entry, true)],
        [⟨entry, data⟩]⟩ :: s.stack }

/-- The loop of the innermost emit goes to the next of its snapshot, or ends. -/
def next (s : EventEmitter L) (d : Emission L) (below : List (Emission L)) : EventEmitter L :=
  match d.rest with
  | [] => { s with stack := below, finished := d :: s.finished }
  | entry :: rest =>
    match s.entryOf d.event entry.listener with
    | none => { s with stack := { d with rest, turns := d.turns ++ [(entry, false)] } :: below }
    | some current =>
      { s.handOut d.data with
        stack :=
          { d with
            phase := .calling
            rest
            turns := d.turns ++ [(entry, decide (current = entry))]
            called := d.called ++ [⟨current, s.bytesOf d.data⟩] } :: below }

/-- Whether code outside the emitter's loops is running, or may start to. -/
def isOpen (s : EventEmitter L) : Bool :=
  match s.stack with
  | [] => true
  | d :: _ => decide (d.phase ≠ .looping)

/-- A call of the emitter from outside. -/
def call (s : EventEmitter L) (f : EventEmitter L → EventEmitter L) : Option (EventEmitter L) :=
  if s.isOpen then some (f s) else none

def step (s : EventEmitter L) : EmitterEvent L → Option (EventEmitter L)
  | .add event listener => s.call (·.add event listener)
  | .remove event listener => s.call (·.remove event listener)
  | .callRemover event entry => s.call (·.callRemover event entry)
  | .clear => s.call clear
  | .emit event data => s.call (·.emit event data)
  | .emitTo event listener data => s.call (·.emitTo event listener data)
  | .write array bytes =>
    if array ∈ s.given then s.call fun s => { s with arrays := s.arrays.set array bytes } else none
  | .next =>
    match s.stack with
    | d :: below => if d.phase = .looping then some (s.next d below) else none
    | [] => none
  | .returned isThrown =>
    match s.stack with
    | d :: below =>
      if d.phase = .calling then
        some { s with
          stack := { d with
            phase := if isThrown ∧ d.event ≠ .onError then .reporting else .looping } :: below }
      else none
    | [] => none
  | .reported =>
    match s.stack with
    | d :: below =>
      if d.phase = .reporting then
        some { s with stack := { d with phase := .looping } :: below }
      else none
    | [] => none

end EventEmitter

def eventEmitter (L : Type) [DecidableEq L] : TransitionSystem (EventEmitter L) (EmitterEvent L) :=
  ⟨.init, EventEmitter.step⟩

/-- Each registration of the snapshot had its turn, or has yet to have it; those still in place then
were called, once each and in order, with the bytes emitted. -/
structure Emission.CallsSnapshot {L : Type} (d : Emission L) : Prop where
  turns : d.turns.map Prod.fst ++ d.rest = d.snapshot
  called : d.called.map ListenerCall.entry = (d.turns.filter Prod.snd).map Prod.fst
  data : ∀ call ∈ d.called, call.data = d.emitted

namespace EventEmitter

variable {L : Type} [DecidableEq L]

/-- What the emitter owes its listeners. A listener has one registration at most, and no
registration is made twice. -/
structure DispatchesBySnapshot (s : EventEmitter L) : Prop where
  distinct : ∀ event, KeyedList.Distinct ListenerEntry.listener (s.listeners event)
  numbered : ∀ event, ∀ entry ∈ s.listeners event, entry.registration < s.made
  emissions : ∀ d ∈ s.stack ++ s.finished, d.CallsSnapshot
  finished : ∀ d ∈ s.finished, d.rest = []
  starts : ∀ event data s', s.step (.emit event data) = some s' → s.listeners event ≠ [] →
    ∃ d, s'.stack = d :: s.stack ∧ d.event = event ∧ d.snapshot = s.listeners event ∧
      d.emitted = data ∧ d.turns = []
  remover : ∀ event entry s', s.step (.callRemover event entry) = some s' →
    s'.listeners = Function.update s.listeners event ((s.listeners event).filter (· ≠ entry))

/-- The condition: a listener whose turn comes was not removed and registered again since the emit
started. -/
def keepsRegistration (s : EventEmitter L) : EmitterEvent L → Bool
  | .next =>
    match s.stack with
    | d :: _ =>
      d.rest.head?.all fun entry => (s.entryOf d.event entry.listener).all fun current =>
        current = entry
    | [] => true
  | _ => true

end EventEmitter

/-! ### the bytes of an emit -/

/-- The array of the payload holds what is emitted, and no listener was given it. -/
structure Emission.OwnsBytes {L : Type} (d : Emission L) (arrays : List (List UInt8))
    (given : List ℕ) : Prop where
  emitted : d.data.bind (arrays[·]?) = d.emitted
  kept : ∀ array, d.data = some array → array < arrays.length ∧ array ∉ given

namespace Emission

variable {L : Type} {d : Emission L} {arrays : List (List UInt8)} {given : List ℕ}

theorem OwnsBytes.allocate (h : d.OwnsBytes arrays given) (bytes : List UInt8) :
    d.OwnsBytes (arrays ++ [bytes]) given := by
  refine ⟨?_, fun array hdata => ⟨?_, (h.kept array hdata).2⟩⟩
  · rw [← h.emitted]
    cases hdata : d.data with
    | none => rfl
    | some array => exact List.getElem?_append_left (h.kept array hdata).1
  · rw [List.length_append]
    exact Nat.lt_add_right _ (h.kept array hdata).1

theorem OwnsBytes.give (h : d.OwnsBytes arrays given) {array : ℕ}
    (hnew : ∀ a, d.data = some a → a ≠ array) :
    d.OwnsBytes arrays (array :: given) := by
  refine ⟨h.emitted, fun a hdata => ⟨(h.kept a hdata).1, fun hmem => ?_⟩⟩
  obtain heq | hmem := List.mem_cons.mp hmem
  · exact hnew a hdata heq
  · exact (h.kept a hdata).2 hmem

theorem OwnsBytes.write (h : d.OwnsBytes arrays given) {array : ℕ} (hgiven : array ∈ given)
    (bytes : List UInt8) :
    d.OwnsBytes (arrays.set array bytes) given := by
  refine ⟨?_, fun a hdata => ⟨?_, (h.kept a hdata).2⟩⟩
  · rw [← h.emitted]
    cases hdata : d.data with
    | none => rfl
    | some a =>
      have hne : array ≠ a := fun heq => (h.kept a hdata).2 (heq ▸ hgiven)
      exact List.getElem?_set_ne hne
  · rw [List.length_set]
    exact (h.kept a hdata).1

/-! ### the turns of an emit -/

theorem CallsSnapshot.skip {entry : ListenerEntry L} {rest : List (ListenerEntry L)}
    (h : d.CallsSnapshot)
    (hrest : d.rest = entry :: rest) :
    { d with rest, turns := d.turns ++ [(entry, false)] }.CallsSnapshot := by
  have hturns := h.turns
  rw [hrest] at hturns
  refine ⟨?_, ?_, h.data⟩
  · simpa using hturns
  · simpa using h.called

theorem CallsSnapshot.turn {entry : ListenerEntry L} {rest : List (ListenerEntry L)}
    (h : d.CallsSnapshot)
    (hrest : d.rest = entry :: rest) (phase : EmissionPhase) :
    { d with
    phase
    rest
    turns := d.turns ++ [(entry, true)]
    called := d.called ++ [ListenerCall.mk entry d.emitted] }.CallsSnapshot := by
  have hturns := h.turns
  rw [hrest] at hturns
  refine ⟨?_, ?_, ?_⟩
  · simpa using hturns
  · simpa using h.called
  · intro call hcall
    obtain hcall | hcall := List.mem_append.mp hcall
    · exact h.data call hcall
    · rw [List.mem_singleton.mp hcall]

end Emission

namespace EventEmitter

variable {L : Type} [DecidableEq L]

/-- What holds at every moment of a run. -/
structure Sound (s : EventEmitter L) : Prop where
  distinct : ∀ event, KeyedList.Distinct ListenerEntry.listener (s.listeners event)
  numbered : ∀ event, ∀ entry ∈ s.listeners event, entry.registration < s.made
  emissions : ∀ d ∈ s.stack ++ s.finished, d.CallsSnapshot
  finished : ∀ d ∈ s.finished, d.rest = []
  given : ∀ array ∈ s.given, array < s.arrays.length
  bytes : ∀ d ∈ s.stack, d.OwnsBytes s.arrays s.given

omit [DecidableEq L] in
theorem sound_init : (init : EventEmitter L).Sound where
  distinct _ := List.nodup_nil
  numbered _ _ h := absurd h List.not_mem_nil
  emissions _ h := absurd h List.not_mem_nil
  finished _ h := absurd h List.not_mem_nil
  given _ h := absurd h List.not_mem_nil
  bytes _ h := absurd h List.not_mem_nil

/-! ### the listeners change -/

variable {s s' : EventEmitter L} {event : EventName} {listener : L}

omit [DecidableEq L] in
/-- The listeners of one event are replaced. -/
theorem Sound.setListeners (hs : s.Sound) {listeners : List (ListenerEntry L)} {made : ℕ}
    (hmade : s.made ≤ made)
    (hdistinct : KeyedList.Distinct ListenerEntry.listener listeners)
    (hnumbered : ∀ entry ∈ listeners, entry.registration < made) :
    { s.setListeners event listeners with made }.Sound := by
  refine { hs with distinct := fun event' => ?_, numbered := fun event' => ?_ }
  · by_cases heq : event' = event
    · subst heq
      simpa [EventEmitter.setListeners] using hdistinct
    · simpa [EventEmitter.setListeners, heq] using hs.distinct event'
  · by_cases heq : event' = event
    · subst heq
      simpa [EventEmitter.setListeners] using hnumbered
    · intro entry hentry
      exact Nat.lt_of_lt_of_le
        (hs.numbered event' entry (by simpa [EventEmitter.setListeners, heq] using hentry)) hmade

theorem Sound.add (hs : s.Sound) : (s.add event listener).Sound := by
  unfold EventEmitter.add
  cases hentry : s.entryOf event listener with
  | some _ => exact hs
  | none =>
    refine hs.setListeners (Nat.le_succ _) ((hs.distinct event).concat fun entry hmem => ?_)
      fun entry hmem => ?_
    · exact KeyedList.lookup_eq_none.mp hentry entry hmem
    · obtain hmem | hmem := List.mem_append.mp hmem
      · exact Nat.lt_succ_of_lt (hs.numbered event entry hmem)
      · rw [List.mem_singleton.mp hmem]
        exact Nat.lt_succ_self _

theorem Sound.remove (hs : s.Sound) : (s.remove event listener).Sound :=
  hs.setListeners (Nat.le_refl _) (hs.distinct event).erase fun entry hmem =>
    hs.numbered event entry (KeyedList.mem_erase.mp hmem).1

theorem Sound.callRemover (hs : s.Sound) {entry : ListenerEntry L} :
    (s.callRemover event entry).Sound := by
  unfold EventEmitter.callRemover
  split
  · exact hs.remove
  · exact hs

omit [DecidableEq L] in
theorem Sound.clear (hs : s.Sound) : s.clear.Sound :=
  { hs with
    distinct := fun _ => List.nodup_nil
    numbered := fun _ _ h => absurd h List.not_mem_nil }

/-! ### arrays are made and written -/

omit [DecidableEq L] in
theorem stack_allocate (s : EventEmitter L) (data : Option (List UInt8)) :
    (s.allocate data).1.stack = s.stack := by
  cases data with
  | none => rfl
  | some _ => rfl

omit [DecidableEq L] in
theorem Sound.allocate (hs : s.Sound) (data : Option (List UInt8)) : (s.allocate data).1.Sound := by
  cases data with
  | none => exact hs
  | some bytes =>
    refine { hs with
      given := fun array hmem => ?_
      bytes := fun d hd => (hs.bytes d hd).allocate bytes }
    simp only [EventEmitter.allocate, List.length_append]
    exact Nat.lt_add_right _ (hs.given array hmem)

omit [DecidableEq L] in
theorem Sound.handOut (hs : s.Sound) (data : Option ℕ) : (s.handOut data).Sound := by
  unfold EventEmitter.handOut
  cases s.bytesOf data with
  | none => exact hs
  | some bytes =>
    refine { hs.allocate (some bytes) with given := fun array hmem => ?_, bytes := fun d hd => ?_ }
    · simp only [EventEmitter.allocate, List.length_append, List.length_singleton]
      obtain rfl | hmem := List.mem_cons.mp hmem
      · exact Nat.lt_succ_self _
      · exact Nat.lt_succ_of_lt (hs.given array hmem)
    · have howns := hs.bytes d hd
      exact (howns.allocate bytes).give fun a hdata => Nat.ne_of_lt (howns.kept a hdata).1

omit [DecidableEq L] in
theorem Sound.write (hs : s.Sound) {array : ℕ} (hgiven : array ∈ s.given) (bytes : List UInt8) :
    { s with arrays := s.arrays.set array bytes }.Sound := by
  refine { hs with
    given := fun a hmem => ?_
    bytes := fun d hd => (hs.bytes d hd).write hgiven bytes }
  rw [List.length_set]
  exact hs.given a hmem

/-! ### the emits going on -/

omit [DecidableEq L] in
theorem Sound.push (hs : s.Sound) {d : Emission L} (hd : d.CallsSnapshot)
    (howns : d.OwnsBytes s.arrays s.given) :
    { s with stack := d :: s.stack }.Sound := by
  refine { hs with emissions := fun d' hd' => ?_, bytes := fun d' hd' => ?_ }
  · obtain rfl | hd' := List.mem_cons.mp hd'
    · exact hd
    · exact hs.emissions d' hd'
  · obtain rfl | hd' := List.mem_cons.mp hd'
    · exact howns
    · exact hs.bytes d' hd'

omit [DecidableEq L] in
theorem Sound.pop (hs : s.Sound) {d : Emission L} {below : List (Emission L)}
    (hstack : s.stack = d :: below) :
    { s with stack := below }.Sound := by
  refine { hs with
    emissions := fun d' hd' => hs.emissions d' ?_
    bytes := fun d' hd' => hs.bytes d' ?_ }
  · rw [hstack]
    exact List.mem_cons_of_mem _ hd'
  · rw [hstack]
    exact List.mem_cons_of_mem _ hd'

omit [DecidableEq L] in
/-- The innermost emit goes on; its payload stays the one it has. -/
theorem Sound.replace (hs : s.Sound) {d d' : Emission L} {below : List (Emission L)}
    (hstack : s.stack = d :: below)
    (hd : d'.CallsSnapshot) (hdata : d'.data = d.data) (hemitted : d'.emitted = d.emitted) :
    { s with stack := d' :: below }.Sound := by
  have howns := hs.bytes d (by rw [hstack]; exact List.mem_cons_self)
  refine (hs.pop hstack).push hd ⟨?_, ?_⟩
  · rw [hdata, hemitted]
    exact howns.emitted
  · rw [hdata]
    exact howns.kept

omit [DecidableEq L] in
theorem Sound.setPhase (hs : s.Sound) {d : Emission L} {below : List (Emission L)}
    (hstack : s.stack = d :: below)
    (phase : EmissionPhase) : { s with stack := { d with phase } :: below }.Sound := by
  have hd := hs.emissions d (by simp [hstack])
  exact hs.replace hstack ⟨hd.turns, hd.called, hd.data⟩ rfl rfl

omit [DecidableEq L] in
theorem Sound.finish (hs : s.Sound) {d : Emission L} {below : List (Emission L)}
    (hstack : s.stack = d :: below) (hrest : d.rest = []) :
    { s with stack := below, finished := d :: s.finished }.Sound := by
  refine { hs.pop hstack with
    emissions := fun d' hd' => hs.emissions d' ?_
    finished := fun d' hd' => ?_ }
  · rw [hstack]
    simp only [List.mem_append, List.mem_cons] at hd' ⊢
    grind
  · obtain rfl | hd' := List.mem_cons.mp hd'
    · exact hrest
    · exact hs.finished d' hd'

omit [DecidableEq L] in
/-- An emit that starts has a payload no listener knows. -/
theorem Sound.ownsBytes (hs : s.Sound) {d : Emission L}
    (hdata : d.data = (s.allocate d.emitted).2) :
    d.OwnsBytes (s.allocate d.emitted).1.arrays (s.allocate d.emitted).1.given := by
  cases hemitted : d.emitted with
  | none =>
    rw [hemitted] at hdata
    refine ⟨?_, fun array harray => ?_⟩
    · rw [hdata, hemitted]
      rfl
    · exact absurd (hdata.symm.trans harray) (by simp [EventEmitter.allocate])
  | some bytes =>
    rw [hemitted] at hdata
    refine ⟨?_, fun array harray => ?_⟩
    · rw [hdata, hemitted]
      exact List.getElem?_concat_length
    · obtain rfl : s.arrays.length = array := Option.some.inj (hdata.symm.trans harray)
      refine ⟨?_, fun hmem => absurd (hs.given _ hmem) (Nat.lt_irrefl _)⟩
      simp [EventEmitter.allocate]

omit [DecidableEq L] in
theorem Sound.emit (hs : s.Sound) (data : Option (List UInt8)) : (s.emit event data).Sound := by
  unfold EventEmitter.emit
  split
  · exact hs
  · rw [← stack_allocate s data]
    exact (hs.allocate data).push ⟨rfl, rfl, fun _ h => absurd h List.not_mem_nil⟩
      (hs.ownsBytes rfl)

omit [DecidableEq L] in
/-- The copy a listener is given beside what becomes of the emits. -/
theorem Sound.handOut_withStack {stack : List (Emission L)} (hs : { s with stack }.Sound)
    (data : Option ℕ) :
    { s.handOut data with stack }.Sound := by
  have hhand := hs.handOut data
  simp only [EventEmitter.handOut, EventEmitter.bytesOf] at hhand ⊢
  cases hbytes : data.bind (s.arrays[·]?) with
  | none =>
    simp only [hbytes] at hhand ⊢
    exact hhand
  | some bytes =>
    simp only [hbytes] at hhand ⊢
    exact hhand

theorem Sound.emitTo (hs : s.Sound) (data : Option (List UInt8)) :
    (s.emitTo event listener data).Sound := by
  unfold EventEmitter.emitTo
  cases s.entryOf event listener with
  | none => exact hs
  | some entry =>
    have hpush := (hs.allocate data).push (d := ⟨event, (s.allocate data).2, .calling, [], data,
        [entry], [(entry, true)], [⟨entry, data⟩]⟩)
      ⟨rfl, rfl, fun call hcall => by rw [List.mem_singleton.mp hcall]⟩ (hs.ownsBytes rfl)
    rw [stack_allocate] at hpush
    exact hpush.handOut_withStack _

/-- The loop goes on, where the listener whose turn it is keeps its registration. -/
theorem Sound.next (hs : s.Sound) {d : Emission L} {below : List (Emission L)}
    (hstack : s.stack = d :: below)
    (hkeeps : ∀ entry rest current, d.rest = entry :: rest →
      s.entryOf d.event entry.listener = some current → current = entry) :
    (s.next d below).Sound := by
  have hmem : d ∈ s.stack := by
    rw [hstack]
    exact List.mem_cons_self
  have hd := hs.emissions d (List.mem_append_left _ hmem)
  unfold EventEmitter.next
  cases hrest : d.rest with
  | nil => exact hs.finish hstack hrest
  | cons entry rest =>
    cases hcurrent : s.entryOf d.event entry.listener with
    | none =>
      simp only [hcurrent]
      exact hs.replace hstack (hd.skip hrest) rfl rfl
    | some current =>
      obtain rfl := hkeeps entry rest current hrest hcurrent
      have hbytes : s.bytesOf d.data = d.emitted := (hs.bytes d hmem).emitted
      simp only [hcurrent, hbytes, decide_true]
      exact (hs.replace hstack (hd.turn hrest .calling) rfl rfl).handOut_withStack _

/-! ### every run -/

omit [DecidableEq L] in
theorem call_eq_some {f : EventEmitter L → EventEmitter L} (h : s.call f = some s') : s' = f s := by
  unfold call at h
  split at h
  · exact (Option.some.inj h).symm
  · cases h

theorem keepsRegistration_next {d : Emission L} {below : List (Emission L)}
    (hstack : s.stack = d :: below)
    (h : s.keepsRegistration .next = true) :
    ∀ entry rest current, d.rest = entry :: rest → s.entryOf d.event entry.listener = some current →
    current = entry := by
  intro entry rest current hrest hcurrent
  simpa [keepsRegistration, hstack, hrest, hcurrent] using h

theorem Sound.step (hs : s.Sound) {e : EmitterEvent L} (hkeeps : s.keepsRegistration e = true)
    (hstep : s.step e = some s') :
    s'.Sound := by
  cases e with
  | add event listener =>
    simp only [EventEmitter.step] at hstep
    rw [call_eq_some hstep]
    exact hs.add
  | remove event listener =>
    simp only [EventEmitter.step] at hstep
    rw [call_eq_some hstep]
    exact hs.remove
  | callRemover event entry =>
    simp only [EventEmitter.step] at hstep
    rw [call_eq_some hstep]
    exact hs.callRemover
  | clear =>
    simp only [EventEmitter.step] at hstep
    rw [call_eq_some hstep]
    exact hs.clear
  | emit event data =>
    simp only [EventEmitter.step] at hstep
    rw [call_eq_some hstep]
    exact hs.emit data
  | emitTo event listener data =>
    simp only [EventEmitter.step] at hstep
    rw [call_eq_some hstep]
    exact hs.emitTo data
  | write array bytes =>
    simp only [EventEmitter.step] at hstep
    split at hstep
    · next hgiven =>
      rw [call_eq_some hstep]
      exact hs.write hgiven bytes
    · cases hstep
  | next =>
    cases hstack : s.stack with
    | nil => simp [EventEmitter.step, hstack] at hstep
    | cons d below =>
      simp only [EventEmitter.step, hstack, Option.ite_none_right_eq_some,
        Option.some.injEq] at hstep
      rw [← hstep.2]
      exact hs.next hstack (keepsRegistration_next hstack hkeeps)
  | returned isThrown =>
    cases hstack : s.stack with
    | nil => simp [EventEmitter.step, hstack] at hstep
    | cons d below =>
      simp only [EventEmitter.step, hstack, Option.ite_none_right_eq_some,
        Option.some.injEq] at hstep
      rw [← hstep.2]
      exact hs.setPhase hstack _
  | reported =>
    cases hstack : s.stack with
    | nil => simp [EventEmitter.step, hstack] at hstep
    | cons d below =>
      simp only [EventEmitter.step, hstack, Option.ite_none_right_eq_some,
        Option.some.injEq] at hstep
      rw [← hstep.2]
      exact hs.setPhase hstack _

/-- What a remover takes away is the registration it belongs to. -/
theorem Sound.listeners_callRemover (hs : s.Sound) (event : EventName) (entry : ListenerEntry L) :
    (s.callRemover event entry).listeners = Function.update s.listeners event
    ((s.listeners event).filter (· ≠ entry)) := by
  unfold EventEmitter.callRemover
  split
  · next hcurrent =>
    refine congrArg (Function.update s.listeners event) (List.filter_congr fun entry' hmem => ?_)
    obtain ⟨hentry, _⟩ := (hs.distinct event).lookup_iff.mp hcurrent
    refine decide_eq_decide.mpr (not_congr ⟨fun heq => ?_, fun heq => by rw [heq]⟩)
    exact (hs.distinct event).eq_of_mem hmem hentry heq
  · next hcurrent =>
    have hkept : (s.listeners event).filter (· ≠ entry) = s.listeners event := by
      refine List.filter_eq_self.mpr fun entry' hmem => decide_eq_true fun heq => hcurrent ?_
      exact (hs.distinct event).lookup_iff.mpr ⟨heq ▸ hmem, rfl⟩
    rw [hkept, Function.update_eq_self]

theorem Sound.dispatchesBySnapshot (hs : s.Sound) : s.DispatchesBySnapshot where
  distinct := hs.distinct
  numbered := hs.numbered
  emissions := hs.emissions
  finished := hs.finished
  starts event data s' hstep hlisteners := by
    simp only [EventEmitter.step] at hstep
    rw [call_eq_some hstep]
    simp only [EventEmitter.emit, if_neg hlisteners]
    exact ⟨_, rfl, rfl, rfl, rfl, rfl⟩
  remover event entry s' hstep := by
    simp only [EventEmitter.step] at hstep
    rw [call_eq_some hstep]
    exact hs.listeners_callRemover event entry

/-- **Dispatch is by snapshot of registrations**, as long as no listener that an emit has yet to
come to is removed and registered again. -/
theorem dispatches_by_snapshot {es : List (EmitterEvent L)}
    (hrun : (eventEmitter L).run es = some s)
    (hkeeps : (eventEmitter L).Always (fun s e => s.keepsRegistration e = true) es) :
    s.DispatchesBySnapshot :=
  (TransitionSystem.run_invariant (T := eventEmitter L) sound_init (fun _ _ _ hs hkeep hstep =>
      hs.step hkeep hstep)
    hkeeps hrun).dispatchesBySnapshot

/-- The first listener writes into its bytes, removes the third, registers a fourth, emits again and
throws. -/
def hostileListener : List (EmitterEvent ℕ) :=
  [.add .onReceive 1, .add .onReceive 2, .add .onReceive 3, .add .onError 4,
    .emit .onReceive (some [65]), .next, .write 1 [66],
    .remove .onReceive 3, .add .onReceive 5, .emit .onSend none, .emit .onError none, .next,
    .returned true, .next, .returned true,
    .reported, .next, .callRemover .onReceive ⟨1, 0⟩, .returned false, .next, .next]

theorem dispatches_by_snapshot_hostileListener :
    ∃ s, (eventEmitter ℕ).run hostileListener = some s ∧ s.DispatchesBySnapshot ∧
      s.finished.map Emission.called = [[⟨⟨1, 0⟩, some [65]⟩, ⟨⟨2, 1⟩, some [65]⟩],
        [⟨⟨4, 3⟩, none⟩]] := by
  have hends : ((eventEmitter ℕ).run hostileListener).any (fun s =>
      decide (s.finished.map Emission.called =
      [[⟨⟨1, 0⟩, some [65]⟩, ⟨⟨2, 1⟩, some [65]⟩], [⟨⟨4, 3⟩, none⟩]])) = true := by decide
  obtain ⟨s, hrun, hfinished⟩ := (Option.any_eq_true _ _).mp hends
  refine ⟨s, hrun, dispatches_by_snapshot hrun ?_, of_decide_eq_true hfinished⟩
  exact TransitionSystem.always_of_alwaysFrom keepsRegistration (by decide)

/-- The first listener removes the second and registers it again. -/
def registeredAgain : List (EmitterEvent ℕ) :=
  [.add .onReceive 1, .add .onReceive 2, .emit .onReceive none, .next, .remove .onReceive 2,
    .add .onReceive 2, .returned false,
    .next, .returned false, .next]

/-- The second listener is called under the registration made during the emit. -/
theorem new_registration_called :
    ∃ s, (eventEmitter ℕ).run registeredAgain = some s ∧ ¬ s.DispatchesBySnapshot ∧
      s.finished.map Emission.snapshot = [[⟨1, 0⟩, ⟨2, 1⟩]] ∧
        s.finished.map Emission.called = [[⟨⟨1, 0⟩, none⟩, ⟨⟨2, 2⟩, none⟩]] := by
  have hends : ((eventEmitter ℕ).run registeredAgain).any (fun s => decide (s.finished =
      [⟨.onReceive, none, .looping, [], none, [⟨1, 0⟩, ⟨2, 1⟩], [(⟨1, 0⟩, true), (⟨2, 1⟩, false)],
        [⟨⟨1, 0⟩, none⟩, ⟨⟨2, 2⟩, none⟩]⟩])) = true := by decide
  obtain ⟨s, hrun, hfinished⟩ := (Option.any_eq_true _ _).mp hends
  have hfinished := of_decide_eq_true hfinished
  refine ⟨s, hrun, fun hdispatches => ?_, by rw [hfinished]; rfl, by rw [hfinished]; rfl⟩
  have hcalled := (hdispatches.emissions _
    (List.mem_append_right _ (by rw [hfinished]; exact List.mem_cons_self))).called
  exact absurd hcalled (by decide)

end EventEmitter

end SerialBroker
