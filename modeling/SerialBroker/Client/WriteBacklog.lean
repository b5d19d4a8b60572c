import SerialBroker.Client.AcceptedWrites
import SerialBroker.Owner.PortWriter
import SerialBroker.Owner.WriteJobs

/-!
# The backlog of unanswered writes

`#performWrite` of the session with `refusalOfWrite` and the accounting of `PortSupervisor.write`,
over the write path of the supervisor and the record of accepted writes. One term of holding the
port has a supervisor and a record of its own; both outlive the term, for as long as a write at the
supervisor is unanswered.

A write's promise is heard by two reactions, `answered` of the supervisor and the session's,
registered in this order. They are queued next to each other when the promise settles, so no code
runs between them, and they are one step here.
-/

namespace SerialBroker

/-- An entry of `#unanswered`. -/
structure UnansweredWrite where
  write : WriteId
  byteLength : ℕ
  deriving DecidableEq

/-- What the reactions to a write's promise know of it. -/
structure WriteReaction where
  write : WriteId
  key : WriteKey
  payload : Payload
  deriving DecidableEq

/-- What became of a request. -/
inductive RequestResult
  | refused
  | repeated
  | answered (outcome : WriteOutcome)
  | handedOn (write : WriteId)
  deriving DecidableEq

/-- A supervisor's writes, and the record of the term. -/
structure WriteBacklog where
  writer : PortWriter
  unanswered : List UnansweredWrite
  unansweredBytes : ℤ
  accepted : AcceptedWrites
  reactions : List WriteReaction
  deriving DecidableEq

/-- What the session makes of an answer: it takes whatever was thrown for an error of the
library. -/
def WriteAnswer.outcome : WriteAnswer → WriteOutcome
  | .done => none
  | .failed error => some error
  | .threw => some (.plain .UNKNOWN)

namespace WriteBacklog

variable (config : WriterConfig)

def empty : WriteBacklog := ⟨.init, [], 0, .empty, []⟩

/-- `refusalOfWrite`: there is no room for the write. -/
def isFull (b : WriteBacklog) (byteLength : ℕ) : Bool :=
  !(decide (b.unanswered.length < maxWaitingWrites) &&
    decide (b.unansweredBytes + byteLength ≤ maxWaitingWriteBytes))

/-- `PortSupervisor.write`, whose promise the session hears. -/
def write (b : WriteBacklog) (key : WriteKey) (payload : Payload) : WriteBacklog :=
  { b with
    writer := b.writer.write config payload
    unanswered := b.unanswered ++ [⟨b.writer.writes.length, payload.length⟩]
    unansweredBytes := b.unansweredBytes + payload.length
    reactions := b.reactions ++ [⟨b.writer.writes.length, key, payload⟩] }

/-- `#performWrite`. -/
def performWrite (b : WriteBacklog) (key : WriteKey) (payload : Payload) :
    WriteBacklog × RequestResult :=
  if !b.accepted.isKnown key && b.isFull payload.length then (b, .refused)
  else
    match b.accepted.admitWrite key with
    | (_, .inProgress) => (b, .repeated)
    | (_, .finished outcome) => (b, .answered outcome)
    | (accepted, .new) =>
      ({ b with accepted }.write config key payload, .handedOn b.writer.writes.length)

/-- Both reactions to the promise of a write, which has settled. -/
def react (b : WriteBacklog) (write : WriteId) : Option WriteBacklog :=
  match KeyedList.lookup WriteReaction.write write b.reactions,
    (b.writer.write? write).bind PortWrite.answer with
  | some reaction, some answer =>
    some
      { b with
        unanswered := KeyedList.erase UnansweredWrite.write write b.unanswered
        unansweredBytes := b.unansweredBytes - reaction.payload.length
        accepted := b.accepted.finish reaction.key answer.outcome
        reactions := KeyedList.erase WriteReaction.write write b.reactions }
  | _, _ => none

/-- Whatever else happens to the writes of the supervisor: approvals, deadlines, chunks, the
connection, the end of the term. -/
def goOn (b : WriteBacklog) (event : WriterEvent) : Option WriteBacklog :=
  match event with
  | .write _ => none
  | event => (b.writer.step config event).map fun writer => { b with writer }

/-- The unanswered writes of a request. -/
def writesOf (b : WriteBacklog) (key : WriteKey) : List UnansweredWrite :=
  b.unanswered.filter fun u => b.reactions.any fun reaction => reaction.write = u.write ∧
    reaction.key = key

/-- The backlog is bounded, and its accounts are right. -/
structure IsExact (b : WriteBacklog) : Prop where
  count : b.unanswered.length ≤ maxWaitingWrites
  bytes : (b.unanswered.map UnansweredWrite.byteLength).sum ≤ maxWaitingWriteBytes
  counter : b.unansweredBytes = (b.unanswered.map UnansweredWrite.byteLength).sum
  lengths : b.unanswered.map UnansweredWrite.byteLength = b.reactions.map fun reaction =>
    reaction.payload.length
  neverRefused : ∀ key payload, b.accepted.isKnown key = true →
    (b.performWrite config key payload).2 ≠ .refused
  refusedUntouched : ∀ key payload, (b.performWrite config key payload).2 = .refused →
    (b.performWrite config key payload).1 = b
  inProgress : ∀ key, (b.writesOf key).length = if key ∈ b.accepted.inProgress then 1 else 0

end WriteBacklog

/-- The terms of a tab, and which of them it is in. -/
structure WriteTerms where
  terms : List WriteBacklog
  current : Option ℕ
  deriving DecidableEq

inductive BacklogEvent
  | startTerm
  | stopBeingOwner
  /-- A request of this tab or a peer, new or repeated. -/
  | performWrite (key : WriteKey) (payload : Payload)
  | goOn (term : ℕ) (event : WriterEvent)
  | react (term : ℕ) (write : WriteId)
  deriving DecidableEq

namespace WriteTerms

variable (config : WriterConfig)

def change (s : WriteTerms) (term : ℕ) (f : WriteBacklog → Option WriteBacklog) :
    Option WriteTerms :=
  (s.terms[term]?.bind f).map fun b => { s with terms := s.terms.set term b }

def step (s : WriteTerms) : BacklogEvent → Option WriteTerms
  | .startTerm =>
    match s.current with
    | none => some ⟨s.terms ++ [.empty], some s.terms.length⟩
    | some _ => none
  | .stopBeingOwner => some { s with current := none }
  | .performWrite key payload =>
    s.current.bind fun term => s.change term fun b => some (b.performWrite config key payload).1
  | .goOn term event => s.change term fun b => b.goOn config event
  | .react term write => s.change term fun b => b.react write

end WriteTerms

def writeTerms (config : WriterConfig) : TransitionSystem WriteTerms BacklogEvent where
  init := ⟨[], none⟩
  step := WriteTerms.step config

namespace PortWriter

variable {config : WriterConfig} {s s' : PortWriter}

/-! ### no write is forgotten by the write path -/

theorem length_adjust_writes (id : WriteId) (f : PortWrite → PortWrite) :
    (KeyedList.adjust PortWrite.id id f s.writes).length = s.writes.length :=
    KeyedList.length_adjust ..

@[simp] theorem length_answer (id : WriteId) (a : WriteAnswer) :
    (s.answer id a).writes.length = s.writes.length :=
  length_adjust_writes ..

@[simp] theorem length_clearExpiry (id : WriteId) :
    (s.clearExpiry id).writes.length = s.writes.length := length_adjust_writes ..

@[simp] theorem length_endJob (id : WriteId) (a : WriteAnswer) :
    (s.endJob id a).writes.length = s.writes.length :=
  length_adjust_writes ..

@[simp] theorem length_startJob (w : PortWrite) :
    (s.startJob config w).writes.length = s.writes.length := by
  rw [startJob]
  split
  · simp
  · split
    · simp
    · exact length_clearExpiry ..

@[simp] theorem length_startNext : (s.startNext config).writes.length = s.writes.length := by
  rw [startNext]
  split
  · split
    · exact length_startJob ..
    · rfl
  · rfl

theorem length_expire (id : WriteId) : (s.expire id).writes.length = s.writes.length := by
  rw [expire]
  split
  · exact length_answer ..
  · exact length_clearExpiry ..

@[simp] theorem length_writeChunk (w : PortWrite) (openId : OpenId) (bytesWritten : ℕ)
    (isThrown : Bool) :
    (s.writeChunk config w openId bytesWritten isThrown).writes.length = s.writes.length := by
  rw [writeChunk]
  split
  · exact length_endJob ..
  · rfl

@[simp] theorem length_begin (w : PortWrite) (isApproved isThrown : Bool) :
    (s.begin config w isApproved isThrown).writes.length = s.writes.length := by
  rw [begin]
  split
  · exact length_endJob ..
  · split
    · exact length_writeChunk ..
    · exact length_endJob ..

@[simp] theorem length_loseConnection (openId : OpenId) :
    (s.loseConnection openId).writes.length = s.writes.length := by
  rw [loseConnection]
  split <;> rfl

theorem length_chunkTaken (w : PortWrite) (openId : OpenId) (bytesWritten : ℕ) (call : ChunkCall)
    (isThrown : Bool) :
    (s.chunkTaken config w openId bytesWritten call isThrown).writes.length = s.writes.length := by
  rw [chunkTaken]
  split
  · exact length_writeChunk ..
  · exact length_endJob ..

theorem length_awaitStalledWrite (w : PortWrite) (openId : OpenId) (call : ChunkCall) :
    (s.awaitStalledWrite w openId call).writes.length = s.writes.length := by
  rw [awaitStalledWrite]
  split <;> rfl

theorem length_stallEnded (w : PortWrite) (openId : OpenId) (call : ChunkCall)
    (result : StallResult) :
    (s.stallEnded w openId call result).writes.length = s.writes.length := by
  cases result with
  | taken => exact length_endJob ..
  | ended => exact length_endJob ..
  | rejected => exact (length_endJob ..).trans (length_loseConnection ..)

theorem length_goOn {isThrown : Bool} (h : s.goOn config isThrown = some s') :
    s'.writes.length = s.writes.length := by
  rw [goOn] at h
  split at h
  case h_1 =>
    obtain ⟨w, _, rfl⟩ := Option.map_eq_some_iff.mp h
    exact length_begin ..
  case h_2 result _ =>
    split at h
    case h_1 =>
      obtain rfl := Option.some.inj h
      cases result with
      | taken => exact length_chunkTaken ..
      | rejected => exact (length_endJob ..).trans (length_loseConnection ..)
      | timedOut => exact (length_awaitStalledWrite ..).trans (length_answer ..)
    case h_2 => cases h
  case h_3 =>
    split at h
    case h_1 =>
      obtain rfl := Option.some.inj h
      exact length_stallEnded ..
    case h_2 => cases h
  case h_4 => cases h

theorem length_enterState (next : ConnectionState) :
    (s.enterState next).writes.length = s.writes.length := by
  cases next <;> simp only [enterState] <;> split <;> rfl

/-- Only `write` adds a write, and none goes. -/
theorem length_step {event : WriterEvent} (hwrite : ∀ payload, event ≠ .write payload)
    (h : s.step config event = some s') :
    s'.writes.length = s.writes.length := by
  cases event with
  | write payload => exact absurd rfl (hwrite payload)
  | expiryTimer id =>
    simp only [step] at h
    split at h
    · split at h
      · obtain rfl := Option.some.inj h
        exact length_expire id
      · cases h
    · cases h
  | startNext =>
    simp only [step] at h
    split at h
    · obtain rfl := Option.some.inj h
      exact length_startNext
    · cases h
  | mayBegin answer isThrown =>
    simp only [step] at h
    split at h
    · cases answer with
      | none =>
        obtain rfl := Option.some.inj h
        rfl
      | some isApproved =>
        obtain ⟨w, _, rfl⟩ := Option.map_eq_some_iff.mp h
        exact length_begin ..
    · cases h
  | answer isApproved =>
    simp only [step] at h
    split at h
    · obtain rfl := Option.some.inj h
      rfl
    · cases h
  | answerTimer =>
    simp only [step] at h
    split at h
    · split at h
      · obtain rfl := Option.some.inj h
        rfl
      · cases h
    · cases h
  | stopWaiting =>
    simp only [step] at h
    split at h
    · obtain rfl := Option.some.inj h
      rfl
    · obtain rfl := Option.some.inj h
      rfl
  | goOn isThrown => exact length_goOn h
  | settle chunk isTaken =>
    simp only [step] at h
    split at h
    · obtain rfl := Option.some.inj h
      rfl
    · cases h
  | deadline =>
    simp only [step] at h
    split at h
    · split at h
      · obtain rfl := Option.some.inj h
        rfl
      · cases h
    · cases h
  | finish =>
    simp only [step] at h
    split at h
    · obtain rfl := Option.some.inj h
      exact length_startNext
    · cases h
  | enterState next =>
    simp only [step] at h
    split at h
    · obtain rfl := Option.some.inj h
      exact length_enterState next
    · cases h
  | tick ms =>
    obtain rfl := Option.some.inj h
    rfl

end PortWriter

/-! ### the accounts -/

namespace AcceptedWrites

variable {a : AcceptedWrites} {key : WriteKey}

/-- A request that is not known is recorded as in progress. -/
theorem admitWrite_of_unknown (h : a.isKnown key = false) :
    key ∉ a.inProgress ∧ a.admitWrite key =
      ({ a with inProgress := a.inProgress ++ [key] }, .new) := by
  rw [isKnown, decide_eq_false_iff_not, not_or] at h
  obtain ⟨hnew, hunfinished⟩ := h
  refine ⟨hnew, ?_⟩
  rw [admitWrite, if_neg hnew, Option.not_isSome_iff_eq_none.mp hunfinished]

theorem admitWrite_of_known (h : a.isKnown key = true) :
    (a.admitWrite key).2 = .inProgress ∨ ∃ outcome, (a.admitWrite key).2 = .finished outcome := by
  rw [isKnown, decide_eq_true_iff] at h
  rw [admitWrite]
  split
  case isTrue => exact .inl rfl
  case isFalse hnew =>
    obtain ⟨write, hwrite⟩ := Option.isSome_iff_exists.mp (h.resolve_left hnew)
    rw [hwrite]
    exact .inr ⟨write.outcome, rfl⟩

theorem finish_inProgress (outcome : WriteOutcome) :
    (a.finish key outcome).inProgress = a.inProgress.filter (· ≠ key) := by
  rw [finish]
  split <;> rfl

end AcceptedWrites

namespace WriteBacklog

variable {config : WriterConfig} {b b' : WriteBacklog} {key : WriteKey} {payload : Payload}

/-- The unanswered writes and the requests in progress are those whose reactions have not run. -/
structure Sound (b : WriteBacklog) : Prop where
  unanswered : b.unanswered = b.reactions.map fun reaction =>
    ⟨reaction.write, reaction.payload.length⟩
  inProgress : b.accepted.inProgress = b.reactions.map WriteReaction.key
  counter : b.unansweredBytes = (b.unanswered.map UnansweredWrite.byteLength).sum
  writes : (b.reactions.map WriteReaction.write).Nodup
  keys : (b.reactions.map WriteReaction.key).Nodup
  begun : ∀ reaction ∈ b.reactions, reaction.write < b.writer.writes.length
  count : b.unanswered.length ≤ maxWaitingWrites
  bytes : (b.unanswered.map UnansweredWrite.byteLength).sum ≤ maxWaitingWriteBytes

theorem Sound.empty : Sound .empty where
  unanswered := rfl
  inProgress := rfl
  counter := rfl
  writes := List.nodup_nil
  keys := List.nodup_nil
  begun := List.forall_mem_nil _
  count := Nat.zero_le _
  bytes := Nat.zero_le _

variable (config) in
/-- What a request comes to. -/
theorem performWrite_cases (b : WriteBacklog) (key : WriteKey) (payload : Payload) :
    (b.accepted.isKnown key = true ∧ (b.performWrite config key payload).1 = b ∧
      (b.performWrite config key payload).2 ≠ .refused) ∨
    (b.accepted.isKnown key = false ∧ b.isFull payload.length = true ∧
      b.performWrite config key payload = (b, .refused)) ∨
    (key ∉ b.accepted.inProgress ∧ b.isFull payload.length = false ∧
      b.performWrite config key payload =
      ({ b with
      accepted :=
        { b.accepted with inProgress := b.accepted.inProgress ++ [key] } }.write config key payload,
        .handedOn b.writer.writes.length)) := by
  cases hknown : b.accepted.isKnown key with
  | true =>
    have hadmission := AcceptedWrites.admitWrite_of_known hknown
    cases hadmitted : b.accepted.admitWrite key with
    | mk accepted admission =>
      rw [hadmitted] at hadmission
      obtain rfl | ⟨outcome, rfl⟩ := hadmission
      · exact .inl (by simp [performWrite, hknown, hadmitted])
      · exact .inl (by simp [performWrite, hknown, hadmitted])
  | false =>
    obtain ⟨hnew, hadmitted⟩ := AcceptedWrites.admitWrite_of_unknown hknown
    cases hfull : b.isFull payload.length with
    | true => exact .inr (.inl ⟨rfl, rfl, by rw [performWrite, hknown, hfull]; rfl⟩)
    | false => exact .inr (.inr ⟨hnew, rfl, by rw [performWrite, hknown, hfull, hadmitted]; rfl⟩)

theorem isFull_eq_false {byteLength : ℕ} :
    b.isFull byteLength = false ↔ b.unanswered.length < maxWaitingWrites ∧
      b.unansweredBytes + byteLength ≤ maxWaitingWriteBytes := by
  rw [isFull, Bool.not_eq_false', Bool.and_eq_true, decide_eq_true_iff, decide_eq_true_iff]

/-- A write for which there is room. -/
theorem Sound.write (h : Sound b) (hnew : key ∉ b.accepted.inProgress)
    (hroom : b.isFull payload.length = false) :
    Sound ({ b with
    accepted := { b.accepted with
      inProgress := b.accepted.inProgress ++ [key] } }.write config key payload) := by
  obtain ⟨hcount, hbytes⟩ := isFull_eq_false.mp hroom
  have hcounter := h.counter
  refine ⟨?_, ?_, ?_, ?_, ?_, ?_, ?_, ?_⟩
  · simp only [WriteBacklog.write, h.unanswered, List.map_append, List.map_cons, List.map_nil]
  · simp only [WriteBacklog.write, h.inProgress, List.map_append, List.map_cons, List.map_nil]
  · simp only [WriteBacklog.write, List.map_append, List.map_cons, List.map_nil, List.sum_append,
      List.sum_cons, List.sum_nil]
    omega
  · simp only [WriteBacklog.write, List.map_append, List.map_cons, List.map_nil]
    refine List.nodup_append'.mpr ⟨h.writes, List.nodup_singleton _, List.disjoint_singleton.mpr
      fun hmem => ?_⟩
    obtain ⟨reaction, hreaction, hwrite⟩ := List.mem_map.mp hmem
    exact absurd hwrite (h.begun reaction hreaction).ne
  · simp only [WriteBacklog.write, List.map_append, List.map_cons, List.map_nil]
    exact List.nodup_append'.mpr ⟨h.keys, List.nodup_singleton _,
      List.disjoint_singleton.mpr (h.inProgress ▸ hnew)⟩
  · intro reaction hreaction
    have hlength : (b.writer.write config payload).writes.length = b.writer.writes.length + 1 :=
      List.length_append
    show reaction.write < (b.writer.write config payload).writes.length
    obtain hreaction | hreaction := List.mem_append.mp hreaction
    · exact hlength ▸ (h.begun reaction hreaction).trans (Nat.lt_succ_self _)
    · rw [List.mem_singleton.mp hreaction, hlength]
      exact Nat.lt_succ_self _
  · simp only [WriteBacklog.write, List.length_append, List.length_singleton]
    omega
  · simp only [WriteBacklog.write, List.map_append, List.map_cons, List.map_nil, List.sum_append,
      List.sum_cons, List.sum_nil]
    omega

theorem Sound.performWrite (h : Sound b) (key : WriteKey) (payload : Payload) :
    Sound (b.performWrite config key payload).1 := by
  obtain ⟨_, hsame, _⟩ | ⟨_, _, hrefused⟩ | ⟨hnew, hroom, hwritten⟩ :=
    performWrite_cases config b key payload
  · exact hsame.symm ▸ h
  · exact hrefused.symm ▸ h
  · exact hwritten.symm ▸ h.write hnew hroom

theorem Sound.react (h : Sound b) {write : WriteId} (hstep : b.react write = some b') :
    Sound b' := by
  rw [WriteBacklog.react] at hstep
  split at hstep
  case h_2 => cases hstep
  case h_1 reaction answer hfind _ =>
    obtain rfl := Option.some.inj hstep
    obtain rfl := KeyedList.key_of_lookup hfind
    obtain ⟨before, after, hsplit⟩ := List.append_of_mem (KeyedList.mem_of_lookup hfind)
    have hwrites : KeyedList.Distinct WriteReaction.write (before ++ reaction :: after) :=
      hsplit ▸ h.writes
    have hkeys : KeyedList.Distinct WriteReaction.key (before ++ reaction :: after) :=
      hsplit ▸ h.keys
    have hreactions := hwrites.erase_split
    rw [← hsplit] at hreactions
    have hsublist : (before ++ after).Sublist b.reactions := by
      rw [hsplit]
      exact List.Sublist.append_left (List.sublist_cons_self ..) before
    have hunanswered : KeyedList.erase UnansweredWrite.write reaction.write b.unanswered =
        (before ++ after).map fun reaction => ⟨reaction.write, reaction.payload.length⟩ := by
      rw [h.unanswered, KeyedList.erase, List.filter_map, ← hreactions]
      rfl
    have hsum : (b.unanswered.map UnansweredWrite.byteLength).sum = reaction.payload.length +
        ((KeyedList.erase UnansweredWrite.write reaction.write b.unanswered).map
          UnansweredWrite.byteLength).sum := by
      rw [hunanswered, h.unanswered, hsplit]
      simp only [List.map_append, List.map_cons, List.sum_append, List.sum_cons]
      omega
    have hcounter := h.counter
    have hbytes := h.bytes
    refine ⟨?_, ?_, ?_, ?_, ?_, ?_, ?_, ?_⟩
    · show KeyedList.erase _ _ b.unanswered = (KeyedList.erase _ _ b.reactions).map _
      rw [hunanswered, hreactions]
    · show (b.accepted.finish reaction.key answer.outcome).inProgress = (KeyedList.erase _ _
        b.reactions).map _
      rw [AcceptedWrites.finish_inProgress, h.inProgress, hreactions, hsplit, List.filter_map,
        ← hkeys.erase_split]
      rfl
    · show b.unansweredBytes - reaction.payload.length =
        ((KeyedList.erase UnansweredWrite.write reaction.write b.unanswered).map
          UnansweredWrite.byteLength).sum
      omega
    · show ((KeyedList.erase _ _ b.reactions).map _).Nodup
      rw [hreactions]
      exact h.writes.sublist (hsublist.map _)
    · show ((KeyedList.erase _ _ b.reactions).map _).Nodup
      rw [hreactions]
      exact h.keys.sublist (hsublist.map _)
    · intro other hother
      exact h.begun other (hsublist.subset (hreactions ▸ hother))
    · exact (List.length_filter_le ..).trans h.count
    · show ((KeyedList.erase UnansweredWrite.write reaction.write b.unanswered).map
        UnansweredWrite.byteLength).sum ≤ _
      omega

theorem Sound.goOn (h : Sound b) {event : WriterEvent} (hstep : b.goOn config event = some b') :
    Sound b' := by
  have hwriter : ∀ {writer}, (∀ payload, event ≠ .write payload) →
      b.writer.step config event = some writer → Sound { b with writer } :=
    fun hwrite hwriter => ⟨h.unanswered, h.inProgress, h.counter, h.writes, h.keys,
      fun reaction hreaction => (PortWriter.length_step hwrite hwriter).symm ▸
      h.begun reaction hreaction, h.count, h.bytes⟩
  have hmapped : (∀ payload, event ≠ .write payload) ∧
      (b.writer.step config event).map (fun writer => { b with writer }) = some b' := by
    cases event with
    | write payload => cases hstep
    | _ => exact ⟨fun _ hsame => (by cases hsame), hstep⟩
  obtain ⟨writer, hstep', rfl⟩ := Option.map_eq_some_iff.mp hmapped.2
  exact hwriter hmapped.1 hstep'

theorem Sound.isExact (h : Sound b) : b.IsExact config where
  count := h.count
  bytes := h.bytes
  counter := h.counter
  lengths := by
    rw [h.unanswered, List.map_map]
    rfl
  neverRefused key payload hknown := by
    obtain ⟨_, _, hresult⟩ | ⟨hunknown, _⟩ | ⟨hnew, _, hwritten⟩ :=
      performWrite_cases config b key payload
    · exact hresult
    · rw [hknown] at hunknown
      cases hunknown
    · rw [hwritten]
      exact RequestResult.noConfusion
  refusedUntouched key payload hrefused := by
    obtain ⟨_, hsame, _⟩ | ⟨_, _, hrefusal⟩ | ⟨_, _, hwritten⟩ :=
      performWrite_cases config b key payload
    · exact hsame
    · rw [hrefusal]
    · rw [hwritten] at hrefused
      cases hrefused
  inProgress key := by
    have hown : ∀ reaction ∈ b.reactions,
        (b.reactions.any fun other => other.write = reaction.write ∧
          other.key = key) = decide (reaction.key = key) := by
      intro reaction hreaction
      rw [Bool.eq_iff_iff, List.any_eq_true, decide_eq_true_iff]
      refine ⟨fun ⟨other, hother, hsame⟩ => ?_, fun hkey =>
        ⟨reaction, hreaction, by simpa using hkey⟩⟩
      obtain ⟨hwrite, hkey⟩ := of_decide_eq_true hsame
      have hdistinct : KeyedList.Distinct WriteReaction.write b.reactions := h.writes
      rw [← hdistinct.eq_of_mem hother hreaction hwrite]
      exact hkey
    calc (b.writesOf key).length
        = (b.reactions.filter fun reaction => b.reactions.any fun other =>
            other.write = reaction.write ∧ other.key = key).length := by
          rw [writesOf, h.unanswered, List.filter_map, List.length_map]
          rfl
      _ = (b.reactions.filter fun reaction =>
        decide (reaction.key = key)).length := by rw [List.filter_congr hown]
      _ = (b.reactions.map WriteReaction.key).count key := by
          rw [List.count_eq_length_filter, List.filter_map, List.length_map]
          rfl
      _ = if key ∈ b.accepted.inProgress then 1 else 0 := by rw [h.keys.count, h.inProgress]

end WriteBacklog

theorem WriteTerms.step_sound {config : WriterConfig} {s s' : WriteTerms} {event : BacklogEvent}
    (h : ∀ b ∈ s.terms, b.Sound)
    (hstep : s.step config event = some s') : ∀ b ∈ s'.terms, b.Sound := by
  have hchange : ∀ {term f}, (∀ b b', b.Sound → f b = some b' → b'.Sound) →
      s.change term f = some s' → ∀ b ∈ s'.terms, b.Sound := by
    intro term f hf hchanged b hb
    obtain ⟨new, hnew, rfl⟩ := Option.map_eq_some_iff.mp hchanged
    obtain ⟨old, hold, hfold⟩ := Option.bind_eq_some_iff.mp hnew
    obtain hb | rfl := List.mem_or_eq_of_mem_set hb
    · exact h b hb
    · exact hf old b (h old (List.mem_of_getElem? hold)) hfold
  cases event with
  | startTerm =>
    simp only [step] at hstep
    split at hstep
    · obtain rfl := Option.some.inj hstep
      intro b hb
      obtain hb | hb := List.mem_append.mp hb
      · exact h b hb
      · exact List.mem_singleton.mp hb ▸ WriteBacklog.Sound.empty
    · cases hstep
  | stopBeingOwner =>
    obtain rfl := Option.some.inj hstep
    exact h
  | performWrite key payload =>
    obtain ⟨term, _, hstep⟩ := Option.bind_eq_some_iff.mp hstep
    refine hchange (fun b b' hb hwritten => ?_) hstep
    obtain rfl := Option.some.inj hwritten
    exact hb.performWrite key payload
  | goOn term event => exact hchange (fun b b' hb hgone => hb.goOn hgone) hstep
  | react term write => exact hchange (fun b b' hb hreacted => hb.react hreacted) hstep

/-- **The backlog of unanswered writes is bounded and exact**, of the current term and of every term
that ended. -/
theorem backlog_exact {config : WriterConfig} {events : List BacklogEvent} {s : WriteTerms}
    (hrun : (writeTerms config).run events = some s) : ∀ b ∈ s.terms, b.IsExact config := by
  have hsound : ∀ b ∈ s.terms, b.Sound :=
    (writeTerms config).run_invariant_all (List.forall_mem_nil _) (fun _ _ _ h hstep =>
      WriteTerms.step_sound h hstep) hrun
  exact fun b hb => (hsound b hb).isExact

/-- A request is repeated while it waits, turned back because no port is open, and accepted again;
then the term ends. -/
def turnedBack : List BacklogEvent :=
  let key : WriteKey := ⟨1, 0⟩
  [.startTerm, .performWrite key [80, 73], .performWrite key [80, 73], .goOn 0 .startNext,
    .react 0 0, .goOn 0 .finish,
    .performWrite key [80, 73], .stopBeingOwner, .startTerm]

theorem backlog_exact_turnedBack :
    ∃ s, (writeTerms ⟨5000, 4096, by decide⟩).run turnedBack = some s ∧
      s.terms.map (fun b => (b.unanswered.length, b.unansweredBytes)) = [(1, 2), (0, 0)] ∧
      ∀ b ∈ s.terms, b.IsExact ⟨5000, 4096, by decide⟩ := by
  obtain ⟨s, hrun, hterms⟩ := (Option.any_eq_true _ _).mp
    (show ((writeTerms ⟨5000, 4096, by decide⟩).run turnedBack).any
      (fun s => decide (s.terms.map (fun b => (b.unanswered.length, b.unansweredBytes)) = [(1, 2),
        (0, 0)])) = true by decide)
  exact ⟨s, hrun, of_decide_eq_true hterms, backlog_exact hrun⟩

end SerialBroker
