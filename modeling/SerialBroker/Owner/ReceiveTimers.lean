import SerialBroker.Owner.ReceiveBuffer

/-!
# What is collected is delivered, in order and in time

The calls of `ReceiveBuffer` of `owner/receive-buffer.ts` and the firings of its two timers, along a
clock. A timer never fires early, and it fires on time if the clock does not go past it. Beside the
buffer a run keeps what was pushed and when the chunks of a delivery arrived; the idle timer is due
after the last of them and the other one after the first.
-/

namespace SerialBroker.Wire

/-- A delivery, with the moments its chunks arrived. -/
structure TimedDelivery where
  data : List UInt8
  arrivals : List ℕ
  deliveredAt : ℕ
  deriving DecidableEq

structure TimedBuffer where
  now : ℕ
  buffer : ReceiveBuffer
  arrivals : List ℕ
  pushed : List (List UInt8)
  deliveries : List TimedDelivery
  deriving DecidableEq

inductive BufferEvent
  | push (chunk : List UInt8)
  | flush
  | idleTimer
  | waitTimer
  | elapse (ms : ℕ)
  deriving DecidableEq

namespace TimedBuffer

variable (c : ReceiveConfiguration)

def init : TimedBuffer := ⟨0, .empty, [], [], []⟩

/-- The buffer after a call, with what the call delivers. -/
def after (s : TimedBuffer) (step : ReceiveBuffer × Option (List UInt8)) : TimedBuffer :=
  match step.2 with
  | none => { s with buffer := step.1 }
  | some data => { s with
    buffer := step.1
    arrivals := []
    deliveries := s.deliveries ++ [⟨data, s.arrivals, s.now⟩] }

/-- A chunk is read: an empty one is none. -/
def push (s : TimedBuffer) (chunk : List UInt8) : TimedBuffer :=
  { s with
    pushed := s.pushed ++ [chunk]
    arrivals := if chunk.length = 0 then s.arrivals
      else s.arrivals ++ [s.now] }.after (s.buffer.push c s.now chunk)

def isDue (s : TimedBuffer) (timer : Option ℕ) : Bool := timer.any fun due => due ≤ s.now

def step (s : TimedBuffer) : BufferEvent → Option TimedBuffer
  | .push chunk => some (s.push c chunk)
  | .flush => some (s.after s.buffer.flush)
  | .idleTimer => if s.isDue s.buffer.idleTimer then some (s.after s.buffer.flush) else none
  | .waitTimer => if s.isDue s.buffer.waitTimer then some (s.after s.buffer.flush) else none
  | .elapse ms => some { s with now := s.now + ms }

/-- The clock does not go past a timer that is pending. -/
def isOnTime (s : TimedBuffer) : BufferEvent → Bool
  | .elapse ms =>
    s.buffer.idleTimer.all (fun due => s.now + ms ≤ due) && s.buffer.waitTimer.all fun due =>
      s.now + ms ≤ due
  | _ => true

/-- Nothing is lost, repeated or reordered. -/
structure LosesNothing (s : TimedBuffer) : Prop where
  bytes : (s.deliveries.map TimedDelivery.data).flatten ++
    s.buffer.chunks.flatten = s.pushed.flatten
  inhabited : ∀ d ∈ s.deliveries, d.data ≠ []
  bounded : ∀ d ∈ s.deliveries, ∃ before, ∃ last ∈ s.pushed, d.data = before ++ last ∧
    before.length ≤ maxReceiveDeliveryBytes - 1
  idleTimer : s.buffer.idleTimer.isSome = true ↔ s.buffer.chunks.flatten ≠ []
  waitTimer : s.buffer.waitTimer.isSome = true ↔ s.buffer.chunks.flatten ≠ []

/-- Chunks that arrived at these moments may still be waiting now. -/
structure MayWait (arrivals : List ℕ) (now : ℕ) : Prop where
  first : ∀ first ∈ arrivals.head?, now ≤ first + c.maxWaitMs.val
  last : ∀ last ∈ arrivals.getLast?, now ≤ last + c.idleMs.val

/-- Nothing is delivered late, or waits too long. -/
structure DelaysNothing (s : TimedBuffer) : Prop where
  delivered : ∀ d ∈ s.deliveries, d.arrivals ≠ [] ∧ MayWait c d.arrivals d.deliveredAt
  collected : MayWait c s.arrivals s.now
  arrivals : s.arrivals.length = s.buffer.chunks.length

end TimedBuffer

def timedBuffers (c : ReceiveConfiguration) : TransitionSystem TimedBuffer BufferEvent :=
  ⟨.init, TimedBuffer.step c⟩

/-! ### the buffer between two calls -/

variable {c : ReceiveConfiguration} {b : ReceiveBuffer} {chunk data : List UInt8} {now : ℕ}
  {arrivals : List ℕ}

/-- The buffer holds the chunks that arrived at these moments, and its timers are due after the last
and the first. -/
structure ReceiveBuffer.Collects (c : ReceiveConfiguration) (b : ReceiveBuffer)
    (arrivals : List ℕ) : Prop where
  sound : b.Sound c
  chunks : ∀ chunk ∈ b.chunks, chunk ≠ []
  length : arrivals.length = b.chunks.length
  idleTimer : b.idleTimer = arrivals.getLast?.map (· + c.idleMs.val)
  waitTimer : b.waitTimer = arrivals.head?.map (· + c.maxWaitMs.val)

namespace ReceiveBuffer

theorem empty_collects : empty.Collects c [] where
  sound := empty_sound
  chunks := List.forall_mem_nil _
  length := rfl
  idleTimer := rfl
  waitTimer := rfl

theorem byteLength_eq_zero_iff (hlength : b.byteLength = b.chunks.flatten.length)
    (hchunks : ∀ chunk ∈ b.chunks, chunk ≠ []) :
    b.byteLength = 0 ↔ b.chunks = [] := by
  rw [hlength, List.length_eq_zero_iff, List.flatten_eq_nil_iff]
  constructor
  · intro hempty
    exact List.eq_nil_iff_forall_not_mem.mpr fun chunk hmem =>
      hchunks chunk hmem (hempty chunk hmem)
  · intro hnil chunk hmem
    rw [hnil] at hmem
    cases hmem

theorem flush_of_nil (h : b.Collects c arrivals) (hnil : b.chunks = []) :
    b.flush = (b, none) ∧ arrivals = [] := by
  have harrivals : arrivals = [] := by
    rw [← List.length_eq_zero_iff, h.length, hnil]
    rfl
  have hempty := (byteLength_eq_zero_iff h.sound.byteLength h.chunks).mpr hnil
  have hidle : b.idleTimer = none := by
    rw [h.idleTimer, harrivals]
    rfl
  have hwait : b.waitTimer = none := by
    rw [h.waitTimer, harrivals]
    rfl
  obtain ⟨chunks, byteLength, idleTimer, waitTimer⟩ := b
  obtain rfl : idleTimer = none := hidle
  obtain rfl : waitTimer = none := hwait
  exact ⟨if_pos hempty, harrivals⟩

theorem flush_of_ne_nil (hlength : b.byteLength = b.chunks.flatten.length)
    (hchunks : ∀ chunk ∈ b.chunks, chunk ≠ [])
    (hne : b.chunks ≠ []) : b.flush = (empty, some b.chunks.flatten) := by
  have hpos : ¬b.byteLength = 0 :=
    fun hzero => hne ((byteLength_eq_zero_iff hlength hchunks).mp hzero)
  have hempty : b.flush.1 = empty := by rw [flush, if_neg hpos]
  cases hdata : b.flush.2 with
  | none =>
    rw [flush, if_neg hpos] at hdata
    cases hdata
  | some data =>
    rw [← flush_data hdata, ← hdata, ← hempty]

theorem push_nil (hchunk : chunk.length = 0) : b.push c now chunk = (b, none) := by
  rw [push, if_pos hchunk]

variable (now) in
/-- A chunk is collected, or completes a delivery. -/
theorem Collects.push (h : b.Collects c arrivals) (hchunk : chunk.length ≠ 0) :
    (b.push c now chunk = (empty, some (b.chunks.flatten ++ chunk))) ∨
      ((b.push c now chunk).2 = none ∧ (b.push c now chunk).1.chunks = b.chunks ++ [chunk] ∧
        (b.push c now chunk).1.Collects c (arrivals ++ [now])) := by
  have hlength : b.byteLength + chunk.length = (b.chunks ++ [chunk]).flatten.length :=
    push_length h.sound
  have hchunks : ∀ chunk' ∈ b.chunks ++ [chunk], chunk' ≠ [] := by
    intro chunk' hmem
    rcases List.mem_append.mp hmem with hold | hnew
    · exact h.chunks chunk' hold
    · rw [List.mem_singleton.mp hnew]
      exact List.ne_nil_of_length_pos (Nat.pos_of_ne_zero hchunk)
  have hsound : (b.push c now chunk).1.Sound c := push_sound h.sound
  rw [ReceiveBuffer.push, if_neg hchunk] at hsound ⊢
  dsimp only at hsound ⊢
  split
  · have hflush := flush_of_ne_nil (b := { b with
        chunks := b.chunks ++ [chunk], byteLength := b.byteLength + chunk.length })
      hlength hchunks (by simp)
    rw [hflush, List.flatten_append, List.flatten_singleton]
    exact .inl rfl
  · next hsmall =>
    rw [if_neg hsmall] at hsound
    refine .inr ⟨rfl, rfl, hsound, hchunks, ?_, ?_, ?_⟩
    · rw [List.length_append, List.length_append, h.length]
      rfl
    · rw [List.getLast?_concat]
      rfl
    · rw [h.waitTimer]
      cases arrivals with
      | nil => rfl
      | cons first rest => rfl

end ReceiveBuffer

/-! ### every run -/

namespace TimedBuffer

variable {s s' : TimedBuffer} {event : BufferEvent}

/-- What every step keeps, late timers or not. -/
structure Sound (c : ReceiveConfiguration) (s : TimedBuffer) : Prop where
  collects : s.buffer.Collects c s.arrivals
  pushed : ∀ chunk ∈ s.buffer.chunks, chunk ∈ s.pushed
  bytes : (s.deliveries.map TimedDelivery.data).flatten ++
    s.buffer.chunks.flatten = s.pushed.flatten
  inhabited : ∀ d ∈ s.deliveries, d.data ≠ []
  bounded : ∀ d ∈ s.deliveries, ∃ before, ∃ last ∈ s.pushed, d.data = before ++ last ∧
    before.length ≤ maxReceiveDeliveryBytes - 1

theorem maxCollected_le : maxCollected c ≤ maxReceiveDeliveryBytes - 1 := by
  rw [maxCollected]
  split <;> omega

/-- One more delivery, of the chunks collected and those that completed it. -/
theorem Sound.deliver (h : s.Sound c) {last data : List UInt8} {pushed : List (List UInt8)}
    (harrivals : List ℕ) (hlast : last ∈ pushed)
    (hpushed : ∀ chunk ∈ s.pushed, chunk ∈ pushed) {before : List UInt8}
    (hbefore : before.length ≤ maxReceiveDeliveryBytes - 1)
    (hdata : data = before ++ last) (hne : data ≠ [])
    (hbytes : (s.deliveries.map TimedDelivery.data).flatten ++ data = pushed.flatten) :
    Sound c { s with
    buffer := .empty
    arrivals := []
    pushed
    deliveries := s.deliveries ++ [⟨data, harrivals, s.now⟩] } where
  collects := ReceiveBuffer.empty_collects
  pushed := List.forall_mem_nil _
  bytes := by
    rw [List.map_append, List.flatten_append, List.map_singleton, List.flatten_singleton, hbytes]
    exact List.append_nil _
  inhabited d hd := by
    rcases List.mem_append.mp hd with hold | hnew
    · exact h.inhabited d hold
    · rw [List.mem_singleton.mp hnew]
      exact hne
  bounded d hd := by
    rcases List.mem_append.mp hd with hold | hnew
    · obtain ⟨before, last, hlast, hdata, hbefore⟩ := h.bounded d hold
      exact ⟨before, last, hpushed last hlast, hdata, hbefore⟩
    · rw [List.mem_singleton.mp hnew]
      exact ⟨before, last, hlast, hdata, hbefore⟩

theorem Sound.flush (h : s.Sound c) : (s.after s.buffer.flush).Sound c := by
  by_cases hnil : s.buffer.chunks = []
  · rw [(ReceiveBuffer.flush_of_nil h.collects hnil).1]
    exact h
  · rw [ReceiveBuffer.flush_of_ne_nil h.collects.sound.byteLength h.collects.chunks hnil]
    obtain ⟨chunks, last, hchunks⟩ := (List.eq_nil_or_concat' s.buffer.chunks).resolve_left hnil
    have hlast : last ∈ s.buffer.chunks := by
      rw [hchunks]
      exact List.mem_append_right _ (List.mem_singleton_self last)
    have hdata : s.buffer.chunks.flatten = chunks.flatten ++ last := by
      rw [hchunks, List.flatten_append, List.flatten_singleton]
    have hbefore : chunks.flatten.length ≤ maxReceiveDeliveryBytes - 1 := by
      have hcollected := h.collects.sound.collected.trans maxCollected_le
      rw [h.collects.sound.byteLength, hdata, List.length_append] at hcollected
      omega
    refine h.deliver s.arrivals (h.pushed last hlast) (fun _ hmem => hmem) hbefore hdata ?_ h.bytes
    rw [hdata]
    exact List.append_ne_nil_of_right_ne_nil _ (h.collects.chunks last hlast)

theorem Sound.push (h : s.Sound c) (chunk : List UInt8) : (s.push c chunk).Sound c := by
  have hpushed : ∀ chunk' ∈ s.pushed, chunk' ∈ s.pushed ++ [chunk] :=
    fun _ hmem => List.mem_append_left _ hmem
  have hbytes : (s.pushed ++ [chunk]).flatten = s.pushed.flatten ++ chunk := by
    rw [List.flatten_append, List.flatten_singleton]
  have hbounded : ∀ d ∈ s.deliveries, ∃ before, ∃ last ∈ s.pushed ++ [chunk],
      d.data = before ++ last ∧
      before.length ≤ maxReceiveDeliveryBytes - 1 := by
    intro d hd
    obtain ⟨before, last, hlast, hdata, hbefore⟩ := h.bounded d hd
    exact ⟨before, last, hpushed last hlast, hdata, hbefore⟩
  rw [TimedBuffer.push]
  by_cases hchunk : chunk.length = 0
  · rw [if_pos hchunk, ReceiveBuffer.push_nil hchunk]
    refine ⟨h.collects, fun chunk' hmem => hpushed chunk' (h.pushed chunk' hmem), ?_,
      h.inhabited, hbounded⟩
    rw [after, hbytes, List.length_eq_zero_iff.mp hchunk, List.append_nil]
    exact h.bytes
  · rw [if_neg hchunk]
    have hne : chunk ≠ [] := fun hnil => hchunk (by rw [hnil]; rfl)
    rcases h.collects.push s.now hchunk with hfull | ⟨hnone, hchunks, hcollects⟩
    · rw [hfull]
      have hbefore := h.collects.sound.collected.trans maxCollected_le
      rw [h.collects.sound.byteLength] at hbefore
      refine h.deliver (s.arrivals ++ [s.now])
          (List.mem_append_right _ (List.mem_singleton_self chunk)) hpushed hbefore rfl
        (List.append_ne_nil_of_right_ne_nil _ hne) ?_
      rw [hbytes, ← h.bytes, List.append_assoc]
    · rw [after, hnone]
      refine ⟨hcollects, fun chunk' hmem => ?_, ?_, h.inhabited, hbounded⟩
      · rw [hchunks] at hmem
        rcases List.mem_append.mp hmem with hold | hnew
        · exact hpushed chunk' (h.pushed chunk' hold)
        · exact List.mem_append_right _ hnew
      · rw [hchunks, hbytes, ← h.bytes, List.flatten_append, List.flatten_singleton,
          List.append_assoc]

theorem Sound.init : TimedBuffer.init.Sound c where
  collects := ReceiveBuffer.empty_collects
  pushed := List.forall_mem_nil _
  bytes := rfl
  inhabited := List.forall_mem_nil _
  bounded := List.forall_mem_nil _

theorem Sound.step (h : s.Sound c) (hstep : s.step c event = some s') : s'.Sound c := by
  cases event with
  | push chunk =>
    obtain rfl := Option.some.inj hstep
    exact h.push chunk
  | flush =>
    obtain rfl := Option.some.inj hstep
    exact h.flush
  | idleTimer =>
    obtain ⟨_, hstep⟩ := Option.ite_none_right_eq_some.mp hstep
    obtain rfl := Option.some.inj hstep
    exact h.flush
  | waitTimer =>
    obtain ⟨_, hstep⟩ := Option.ite_none_right_eq_some.mp hstep
    obtain rfl := Option.some.inj hstep
    exact h.flush
  | elapse ms =>
    obtain rfl := Option.some.inj hstep
    exact ⟨h.collects, h.pushed, h.bytes, h.inhabited, h.bounded⟩

theorem Sound.losesNothing (h : s.Sound c) : s.LosesNothing := by
  have hempty : s.buffer.chunks.flatten ≠ [] ↔ s.arrivals ≠ [] := by
    have hlength := h.collects.length
    rw [Ne, ← List.length_eq_zero_iff, ← h.collects.sound.byteLength,
      ReceiveBuffer.byteLength_eq_zero_iff h.collects.sound.byteLength h.collects.chunks, Ne,
      ← List.length_eq_zero_iff,
      ← List.length_eq_zero_iff, hlength]
  refine ⟨h.bytes, h.inhabited, h.bounded, ?_, ?_⟩
  · rw [hempty, h.collects.idleTimer, Option.isSome_map, List.getLast?_isSome]
  · rw [hempty, h.collects.waitTimer, Option.isSome_map, List.isSome_head?]

/-! ### timers that fire on time -/

theorem mayWait_nil {now : ℕ} : MayWait c [] now :=
  ⟨fun _ hfirst => absurd hfirst (by simp), fun _ hlast => absurd hlast (by simp)⟩

/-- A chunk that has just arrived may wait, if those before it may. -/
theorem MayWait.concat {arrivals : List ℕ} {now : ℕ} (h : MayWait c arrivals now) :
    MayWait c (arrivals ++ [now]) now where
  first first hfirst := by
    cases arrivals with
    | nil =>
      obtain rfl := Option.some.inj hfirst
      exact Nat.le_add_right ..
    | cons first' rest =>
      obtain rfl := Option.some.inj hfirst
      exact h.first _ rfl
  last last hlast := by
    rw [List.getLast?_concat] at hlast
    obtain rfl := Option.some.inj hlast
    exact Nat.le_add_right ..

/-- A delivery takes with it what could still wait. -/
theorem DelaysNothing.after_flush (h : s.DelaysNothing c) (hsound : s.Sound c) :
    (s.after s.buffer.flush).DelaysNothing c := by
  by_cases hnil : s.buffer.chunks = []
  · rw [(ReceiveBuffer.flush_of_nil hsound.collects hnil).1]
    exact h
  · rw [ReceiveBuffer.flush_of_ne_nil hsound.collects.sound.byteLength hsound.collects.chunks hnil]
    refine ⟨fun d hd => ?_, mayWait_nil, rfl⟩
    rcases List.mem_append.mp hd with hold | hnew
    · exact h.delivered d hold
    · rw [List.mem_singleton.mp hnew]
      refine ⟨fun (harrivals : s.arrivals = []) => hnil ?_, h.collected⟩
      rw [← List.length_eq_zero_iff, ← h.arrivals, harrivals]
      rfl

theorem DelaysNothing.push (h : s.DelaysNothing c) (hsound : s.Sound c) (chunk : List UInt8) :
    (s.push c chunk).DelaysNothing c := by
  rw [TimedBuffer.push]
  by_cases hchunk : chunk.length = 0
  · rw [if_pos hchunk, ReceiveBuffer.push_nil hchunk]
    exact ⟨h.delivered, h.collected, h.arrivals⟩
  · rw [if_neg hchunk]
    rcases hsound.collects.push s.now hchunk with hfull | ⟨hnone, _, hcollects⟩
    · rw [hfull]
      refine ⟨fun d hd => ?_, mayWait_nil, rfl⟩
      rcases List.mem_append.mp hd with hold | hnew
      · exact h.delivered d hold
      · rw [List.mem_singleton.mp hnew]
        exact ⟨List.append_ne_nil_of_right_ne_nil _ (List.cons_ne_nil _ _), h.collected.concat⟩
    · rw [after, hnone]
      exact ⟨h.delivered, h.collected.concat, hcollects.length⟩

theorem DelaysNothing.step (h : s.DelaysNothing c) (hsound : s.Sound c)
    (htime : s.isOnTime event = true)
    (hstep : s.step c event = some s') : s'.DelaysNothing c := by
  cases event with
  | push chunk =>
    obtain rfl := Option.some.inj hstep
    exact h.push hsound chunk
  | flush =>
    obtain rfl := Option.some.inj hstep
    exact h.after_flush hsound
  | idleTimer =>
    obtain ⟨_, hstep⟩ := Option.ite_none_right_eq_some.mp hstep
    obtain rfl := Option.some.inj hstep
    exact h.after_flush hsound
  | waitTimer =>
    obtain ⟨_, hstep⟩ := Option.ite_none_right_eq_some.mp hstep
    obtain rfl := Option.some.inj hstep
    exact h.after_flush hsound
  | elapse ms =>
    obtain rfl := Option.some.inj hstep
    obtain ⟨hidle, hwait⟩ := Bool.and_eq_true_iff.mp htime
    rw [hsound.collects.idleTimer] at hidle
    rw [hsound.collects.waitTimer] at hwait
    refine ⟨h.delivered, ⟨fun first hfirst => ?_, fun last hlast => ?_⟩, h.arrivals⟩
    · rw [hfirst] at hwait
      exact of_decide_eq_true hwait
    · rw [hlast] at hidle
      exact of_decide_eq_true hidle

/-- **The receive buffer loses, repeats and reorders nothing, and delays nothing if its timers fire
on time.** -/
theorem buffer_delivers {events : List BufferEvent} (hrun : (timedBuffers c).run events = some s) :
    s.LosesNothing ∧ ((timedBuffers c).Always (fun s event => s.isOnTime event = true) events →
      s.DelaysNothing c) := by
  refine ⟨Sound.losesNothing (c := c)
    ((timedBuffers c).run_invariant_all Sound.init (fun _ _ _ h hstep => h.step hstep) hrun), ?_⟩
  intro halways
  have hinit : TimedBuffer.init.Sound c ∧ TimedBuffer.init.DelaysNothing c :=
    ⟨Sound.init, List.forall_mem_nil _, mayWait_nil, rfl⟩
  exact (TransitionSystem.run_invariant (P := fun s => s.Sound c ∧ s.DelaysNothing c) hinit
    (fun _ _ _ h htime hstep => ⟨h.1.step hstep, h.2.step h.1 htime hstep⟩) halways hrun).2

/-- The default times. -/
def defaultTimes : ReceiveConfiguration where
  bufferSize := defaultBufferSize
  idleMs := defaultReceive.idleMs
  maxWaitMs := defaultReceive.maxWaitMs
  decodeText := false

/-- Two chunks, an empty one between them, and a third after the line was quiet. -/
theorem buffer_delivers_quietLine :
    ∃ s, (timedBuffers defaultTimes).run
        [.push [1], .elapse 40, .push [], .push [2, 3], .elapse 50, .idleTimer, .elapse 7,
          .push [4], .flush, .elapse 1000] = some s ∧
      s.deliveries.map TimedDelivery.data = [[1, 2, 3], [4]] ∧ s.LosesNothing ∧
        s.DelaysNothing defaultTimes := by
  obtain ⟨s, hrun, hfacts⟩ := (Option.any_eq_true _ _).mp
    (show ((timedBuffers defaultTimes).run
        [.push [1], .elapse 40, .push [], .push [2, 3], .elapse 50, .idleTimer, .elapse 7,
          .push [4], .flush, .elapse 1000]).any
      (fun s => decide (s.deliveries.map TimedDelivery.data = [[1, 2, 3], [4]])) = true by decide)
  obtain ⟨hloses, hdelays⟩ := buffer_delivers hrun
  exact ⟨s, hrun, of_decide_eq_true hfacts, hloses,
    hdelays (TransitionSystem.always_of_alwaysFrom _ (by decide))⟩

end TimedBuffer

end SerialBroker.Wire
