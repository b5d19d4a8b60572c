import SerialBroker.Lib.Chunks
import SerialBroker.Owner.PortWriter

/-!
# What reaches the device is whole chunks in order

The jobs of a queue begin in the order they were queued and one after another, so the calls of
`writer.write` are sorted by write, and those of one write are a group. What such a group looks like
depends on how far the job has got (`Fits`), and once it has ended on what the write was answered
with (`Answered`): nothing written, every chunk taken, or a last chunk that failed or outlived its
deadline after chunks that were taken.
-/

namespace SerialBroker

namespace PortWriter

/-- The error says that nothing of the write was written. -/
def saysUnbegun (error : SerialBrokerError) : Prop :=
  error.code = .NOT_CONNECTED ∨ error.started = some false

/-- The chunk was rejected or thrown back, or its deadline passed before it settled. -/
def HasFailed (call : ChunkCall) : Prop :=
  call.isLate = true ∨ call.outcome = some .rejected ∨ call.outcome = some .threw

variable (config : WriterConfig) (payload : Payload)

/-- The first chunks of a payload on one connection; all of them but the last were taken,
`bytesWritten` bytes. -/
structure Written (openId : OpenId) (bytesWritten : Nat) (before : List ChunkCall)
    (last : ChunkCall) : Prop where
  sameOpen : ∀ call ∈ before ++ [last], call.openId = openId
  chunks : (before ++ [last]).map ChunkCall.bytes <+: List.chunksOf
    config.maxWriteChunkBytes payload
  taken : ∀ call ∈ before, call.IsTaken
  bytes : bytesWritten = (before.map ChunkCall.bytes).flatten.length

/-- The calls of a write whose last chunk is this one. -/
def Current (openId : OpenId) (bytesWritten : Nat) (chunk : ChunkId) (P : ChunkCall → Prop)
    (calls : List ChunkCall) : Prop :=
  ∃ before last, calls = before ++ [last] ∧ Written config payload openId bytesWritten before last ∧
    last.id = chunk ∧ P last

/-- What an answer says about the calls of its write. -/
def Answered (calls : List ChunkCall) : Option WriteAnswer → Prop
  | none => False
  | some .done => calls.map ChunkCall.bytes = List.chunksOf config.maxWriteChunkBytes payload ∧
      (∀ call ∈ calls, call.IsTaken) ∧ ∃ openId, ∀ call ∈ calls, call.openId = openId
  | some .threw => ∃ openId bytesWritten chunk,
      Current config payload openId bytesWritten chunk (fun call =>
      call.outcome = some .threw) calls
  | some (.failed error) =>
    saysUnbegun error ∧ error.bytesWritten = none ∧ calls = [] ∨
    ¬ saysUnbegun error ∧ ∃ openId bytesWritten chunk, error.bytesWritten = some bytesWritten ∧
      Current config payload openId bytesWritten chunk HasFailed calls

/-- What the phase of a job says about the calls of its write and its answer. -/
def Fits (answer : Option WriteAnswer) (calls : List ChunkCall) : JobPhase → Prop
  | .asking _ | .awaitingAnswer _ | .answered _ => answer = none ∧ calls = []
  | .writing openId bytesWritten chunk _ => answer = none ∧
      Current config payload openId bytesWritten chunk (fun call =>
        call.outcome = none ∧ call.isLate = false) calls
  | .settled openId bytesWritten chunk .taken => answer = none ∧
      Current config payload openId bytesWritten chunk ChunkCall.IsTaken calls
  | .settled openId bytesWritten chunk .rejected => answer = none ∧
      Current config payload openId bytesWritten chunk (fun call => call.outcome = some .rejected ∧
        call.isLate = false) calls
  | .settled openId bytesWritten chunk .timedOut => answer = none ∧
      Current config payload openId bytesWritten chunk (fun call => call.isLate = true) calls
  | .stalled openId chunk | .unstalled openId chunk _ =>
    ∃ bytesWritten, answer = some (timedOut bytesWritten) ∧
      Current config payload openId bytesWritten chunk (fun call => call.isLate = true) calls
  | .ended => Answered config payload calls answer

/-- What holds of the writes in every state. -/
structure Ordered (s : PortWriter) : Prop where
  writeIds : s.writes.map PortWrite.id = List.range s.writes.length
  callIds : s.calls.map ChunkCall.id = List.range s.calls.length
  waitingSorted : s.waiting.Pairwise (· < ·)
  waitingLt : ∀ id ∈ s.waiting, id < s.writes.length
  runningLt : ∀ job, s.running = some job →
    job.write < s.writes.length ∧ ∀ id ∈ s.waiting, job.write < id
  callsSorted : s.calls.Pairwise fun call later => call.write ≤ later.write
  callsLt : ∀ call ∈ s.calls, call.write < s.writes.length ∧ (∀ id ∈ s.waiting, call.write < id) ∧
    ∀ job, s.running = some job → call.write ≤ job.write
  unbegun : ∀ w ∈ s.writes, w.id ∈ s.waiting → w.answer = none ∧ s.callsOf w.id = []
  fits : ∀ w ∈ s.writes, ∀ phase, s.running = some ⟨w.id, phase⟩ →
    Fits config w.payload w.answer (s.callsOf w.id) phase
  answered : ∀ w ∈ s.writes, w.id ∉ s.waiting → (∀ phase, s.running ≠ some ⟨w.id, phase⟩) →
    Answered config w.payload (s.callsOf w.id) w.answer

variable {config payload} {openId : OpenId} {bytesWritten : Nat} {chunk : ChunkId}
  {P Q : ChunkCall → Prop}
  {calls : List ChunkCall} {answer : Option WriteAnswer}

/-! ### the calls of one write -/

theorem Current.imp (h : Current config payload openId bytesWritten chunk P calls)
    (hPQ : ∀ call, P call → Q call) :
    Current config payload openId bytesWritten chunk Q calls := by
  obtain ⟨before, last, hcalls, hwritten, hid, hP⟩ := h
  exact ⟨before, last, hcalls, hwritten, hid, hPQ last hP⟩

/-- What changes about a chunk that was not taken in time concerns the last chunk only. -/
theorem Current.adjust {k : ChunkId} {f : ChunkCall → ChunkCall}
    (h : Current config payload openId bytesWritten chunk P calls)
    (hf : ∀ call, (f call).id = call.id ∧ (f call).openId = call.openId ∧
      (f call).bytes = call.bytes)
    (htaken : ∀ call ∈ calls, call.IsTaken → call.id ≠ k)
    (hQ : ∀ last ∈ calls, P last → Q (if last.id = k then f last else last)) :
    Current config payload openId bytesWritten chunk Q
    (KeyedList.adjust ChunkCall.id k f calls) := by
  obtain ⟨before, last, rfl, hwritten, hid, hP⟩ := h
  have hbefore : KeyedList.adjust ChunkCall.id k f before = before :=
    KeyedList.adjust_of_ne fun call hcall =>
      htaken call (List.mem_append_left _ hcall) (hwritten.taken call hcall)
  have hsplit : KeyedList.adjust ChunkCall.id k f (before ++ [last])
      = before ++ [if last.id = k then f last else last] := by
    have happend : KeyedList.adjust ChunkCall.id k f (before ++ [last])
        = KeyedList.adjust ChunkCall.id k f before ++ KeyedList.adjust ChunkCall.id k f [last] :=
          List.map_append
    rw [happend, hbefore]
    rfl
  have hbytes : (KeyedList.adjust ChunkCall.id k f (before ++ [last])).map
      ChunkCall.bytes = (before ++ [last]).map ChunkCall.bytes :=
    KeyedList.map_adjust fun call => (hf call).2.2
  have hopens : (KeyedList.adjust ChunkCall.id k f (before ++ [last])).map
      ChunkCall.openId = (before ++ [last]).map ChunkCall.openId :=
    KeyedList.map_adjust fun call => (hf call).2.1
  rw [hsplit] at hbytes hopens
  refine ⟨before, _, hsplit, ⟨?_, ?_, hwritten.taken, hwritten.bytes⟩, ?_, hQ last (by simp) hP⟩
  · intro call hcall
    have hmem : call.openId ∈ (before ++ [last]).map ChunkCall.openId :=
      hopens ▸ List.mem_map_of_mem hcall
    obtain ⟨call', hcall', heq⟩ := List.mem_map.mp hmem
    rw [← heq]
    exact hwritten.sameOpen call' hcall'
  · rw [hbytes]
    exact hwritten.chunks
  · split
    · rw [(hf last).1, hid]
    · exact hid

theorem Answered.adjust {k : ChunkId} {f : ChunkCall → ChunkCall}
    (h : Answered config payload calls answer)
    (hf : ∀ call, (f call).id = call.id ∧ (f call).openId = call.openId ∧
      (f call).bytes = call.bytes)
    (hlate : ∀ call, call.isLate = true → (f call).isLate = true)
    (hpending : ∀ call ∈ calls, call.id = k → call.outcome = none) :
    Answered config payload (KeyedList.adjust ChunkCall.id k f calls) answer := by
  have htaken : ∀ call ∈ calls, call.IsTaken → call.id ≠ k := by
    intro call hcall htaken hk
    have hout := htaken.1
    rw [hpending call hcall hk] at hout
    cases hout
  match answer, h with
  | some .done, ⟨hbytes, hall, hopen⟩ =>
    rw [KeyedList.adjust_of_ne fun call hcall => htaken call hcall (hall call hcall)]
    exact ⟨hbytes, hall, hopen⟩
  | some .threw, ⟨openId, bytesWritten, chunk, hcur⟩ =>
    refine ⟨openId, bytesWritten, chunk, hcur.adjust hf htaken fun last hmem hP => ?_⟩
    rw [if_neg fun hk => by rw [hpending last hmem hk] at hP; cases hP]
    exact hP
  | some (.failed error), .inl ⟨hclaims, hbytes, hnil⟩ =>
    subst hnil
    exact Or.inl ⟨hclaims, hbytes, rfl⟩
  | some (.failed error), .inr ⟨hclaims, openId, bytesWritten, chunk, hbytes, hcur⟩ =>
    refine Or.inr ⟨hclaims, openId, bytesWritten, chunk, hbytes, hcur.adjust hf htaken
      fun last hmem hP => ?_⟩
    split
    · next hk =>
      rcases hP with hP | hP | hP
      · exact Or.inl (hlate last hP)
      · rw [hpending last hmem hk] at hP; cases hP
      · rw [hpending last hmem hk] at hP; cases hP
    · exact hP

/-! ### one step -/

variable {s s' : PortWriter}

theorem Ordered.distinct (h : Ordered config s) : KeyedList.Distinct PortWrite.id s.writes := by
  rw [KeyedList.Distinct, h.writeIds]
  exact List.nodup_range

theorem Ordered.exists_write (h : Ordered config s) {id : WriteId} (hlt : id < s.writes.length) :
    ∃ w, w ∈ s.writes ∧ s.write? id = some w ∧ w.id = id := by
  have hid : id ∈ s.writes.map PortWrite.id := by
    rw [h.writeIds]
    exact List.mem_range.mpr hlt
  obtain ⟨w, hw, rfl⟩ := List.mem_map.mp hid
  exact ⟨w, hw, h.distinct.lookup hw, rfl⟩

theorem Ordered.distinctCalls (h : Ordered config s) : KeyedList.Distinct ChunkCall.id s.calls := by
  rw [KeyedList.Distinct, h.callIds]
  exact List.nodup_range

theorem Ordered.of_same (h : Ordered config s) (hwrites : s'.writes = s.writes)
    (hwaiting : s'.waiting = s.waiting)
    (hrunning : s'.running = s.running) (hcalls : s'.calls = s.calls) : Ordered config s' := by
  have hof : s'.callsOf = s.callsOf := by
    funext id
    rw [callsOf, hcalls, callsOf]
  refine ⟨?_, ?_, ?_, ?_, ?_, ?_, ?_, ?_, ?_, ?_⟩
  · rw [hwrites]; exact h.writeIds
  · rw [hcalls]; exact h.callIds
  · rw [hwaiting]; exact h.waitingSorted
  · rw [hwaiting, hwrites]; exact h.waitingLt
  · rw [hrunning, hwaiting, hwrites]; exact h.runningLt
  · rw [hcalls]; exact h.callsSorted
  · rw [hcalls, hwaiting, hwrites, hrunning]; exact h.callsLt
  · rw [hwrites, hwaiting, hof]; exact h.unbegun
  · rw [hwrites, hrunning, hof]; exact h.fits
  · rw [hwrites, hwaiting, hrunning, hof]; exact h.answered

/-- The running job takes a step: only its own write is answered, and only its own chunks are
written. -/
theorem Ordered.runJob (h : Ordered config s) {id : WriteId} {phase phase' : JobPhase}
    (f : PortWrite → PortWrite)
    (new : List ChunkCall) (hrunning : s.running = some ⟨id, phase⟩)
    (hrunning' : s'.running = some ⟨id, phase'⟩)
    (hwaiting : s'.waiting = s.waiting)
    (hwrites : s'.writes = KeyedList.adjust PortWrite.id id f s.writes)
    (hf : ∀ w, (f w).id = w.id ∧ (f w).payload = w.payload) (hcalls : s'.calls = s.calls ++ new)
    (hnew : ∀ call ∈ new, call.write = id)
    (hnewIds : s'.calls.map ChunkCall.id = List.range s'.calls.length)
    (hfits : ∀ w ∈ s.writes, w.id = id → Fits config w.payload w.answer (s.callsOf id) phase →
      Fits config w.payload (f w).answer (s.callsOf id ++ new) phase') : Ordered config s' := by
  obtain ⟨hlt, hbefore⟩ := h.runningLt _ hrunning
  have hlength : s'.writes.length = s.writes.length := by rw [hwrites, KeyedList.length_adjust]
  have hown : s'.callsOf id = s.callsOf id ++ new := by
    have hall : new.filter (fun call => call.write = id) = new :=
      List.filter_eq_self.mpr fun call hcall => by simpa using hnew call hcall
    rw [callsOf, hcalls, List.filter_append, hall, callsOf]
  have hother : ∀ id', id' ≠ id → s'.callsOf id' = s.callsOf id' := by
    intro id' hne
    have hnone : new.filter (fun call => call.write = id') = [] :=
      List.filter_eq_nil_iff.mpr fun call hcall => by simpa [hnew call hcall] using hne.symm
    rw [callsOf, hcalls, List.filter_append, hnone, List.append_nil, callsOf]
  have hmem : ∀ w' ∈ s'.writes, ∃ w ∈ s.writes, w' = if w.id = id then f w else w := fun w' hw' =>
    KeyedList.mem_adjust.mp (hwrites ▸ hw')
  refine ⟨?_, hnewIds, ?_, ?_, ?_, ?_, ?_, ?_, ?_, ?_⟩
  · rw [hlength, hwrites, KeyedList.map_adjust fun w => (hf w).1]
    exact h.writeIds
  · rw [hwaiting]
    exact h.waitingSorted
  · rw [hwaiting, hlength]
    exact h.waitingLt
  · intro job hjob
    rw [hrunning'] at hjob
    cases hjob
    rw [hlength, hwaiting]
    exact ⟨hlt, hbefore⟩
  · rw [hcalls]
    refine List.pairwise_append.mpr ⟨h.callsSorted, ?_, fun call hcall later hlater => ?_⟩
    · exact List.pairwise_of_forall_mem_list fun a ha b hb => by rw [hnew a ha, hnew b hb]
    · rw [hnew later hlater]
      exact (h.callsLt call hcall).2.2 _ hrunning
  · intro call hcall
    rw [hlength, hwaiting, hrunning']
    rcases List.mem_append.mp (hcalls ▸ hcall) with hcall | hcall
    · obtain ⟨hl, hw, hr⟩ := h.callsLt call hcall
      refine ⟨hl, hw, fun job hjob => ?_⟩
      cases hjob
      exact hr ⟨id, phase⟩ hrunning
    · rw [hnew call hcall]
      refine ⟨hlt, hbefore, fun job hjob => ?_⟩
      cases hjob
      exact Nat.le_refl _
  · intro w' hw' hwait
    obtain ⟨w, hw, rfl⟩ := hmem w' hw'
    rw [hwaiting] at hwait
    split at hwait
    · next hid =>
      rw [(hf w).1, hid] at hwait
      exact absurd (hbefore id hwait) (Nat.lt_irrefl _)
    · next hid =>
      rw [if_neg hid, hother _ hid]
      exact h.unbegun w hw hwait
  · intro w' hw' phase'' hphase
    obtain ⟨w, hw, rfl⟩ := hmem w' hw'
    rw [hrunning'] at hphase
    simp only [Option.some.injEq, WritingJob.mk.injEq] at hphase
    obtain ⟨hid', rfl⟩ := hphase
    split at hid'
    · next hid =>
      rw [if_pos hid, (hf w).2, (hf w).1, hid, hown]
      exact hfits w hw hid (h.fits w hw phase (hid ▸ hrunning) |> (hid ▸ ·))
    · next hid => exact absurd hid'.symm hid
  · intro w' hw' hwait hno
    obtain ⟨w, hw, rfl⟩ := hmem w' hw'
    rw [hwaiting] at hwait
    rw [hrunning'] at hno
    split at hwait
    · next hid =>
      rw [if_pos hid, (hf w).1, hid] at hno
      exact absurd rfl (hno phase')
    · next hid =>
      rw [if_neg hid, hother _ hid]
      refine h.answered w hw hwait fun phase'' hphase => ?_
      rw [hrunning] at hphase
      simp only [Option.some.injEq, WritingJob.mk.injEq] at hphase
      exact hid hphase.1.symm

theorem Ordered.wait (h : Ordered config s) {id : WriteId} {phase phase' : JobPhase}
    (hrunning : s.running = some ⟨id, phase⟩)
    (hfits : ∀ w ∈ s.writes, w.id = id → Fits config w.payload w.answer (s.callsOf id) phase →
      Fits config w.payload w.answer (s.callsOf id) phase') :
      Ordered config (s.wait id phase') := by
  refine h.runJob (fun w => w) [] hrunning rfl rfl ?_ (fun w => ⟨rfl, rfl⟩) ?_ ?_ h.callIds ?_
  · exact (KeyedList.adjust_eq_self fun w _ _ => rfl).symm
  · exact (List.append_nil _).symm
  · exact fun call hcall => absurd hcall List.not_mem_nil
  · rw [List.append_nil]
    exact hfits

theorem Ordered.endJob (h : Ordered config s) {id : WriteId} {phase : JobPhase}
    {ending : WriteAnswer}
    (hrunning : s.running = some ⟨id, phase⟩)
    (hfits : ∀ w ∈ s.writes, w.id = id → Fits config w.payload w.answer (s.callsOf id) phase →
      Answered config w.payload (s.callsOf id) (some (w.answer.getD ending))) :
      Ordered config (s.endJob id ending) := by
  refine h.runJob (fun w => w.settle ending) [] hrunning rfl rfl rfl (fun w =>
    ⟨rfl, rfl⟩) ?_ ?_ h.callIds ?_
  · exact (List.append_nil _).symm
  · exact fun call hcall => absurd hcall List.not_mem_nil
  · rw [List.append_nil]
    exact hfits

theorem Ordered.clearExpiry (h : Ordered config s) (id : WriteId) :
    Ordered config (s.clearExpiry id) := by
  have hmem : ∀ w' ∈ (s.clearExpiry id).writes, ∃ w ∈ s.writes, w'.id = w.id ∧
      w'.payload = w.payload ∧ w'.answer = w.answer := by
    intro w' hw'
    obtain ⟨w, hw, rfl⟩ := KeyedList.mem_adjust.mp hw'
    refine ⟨w, hw, ?_⟩
    split
    · exact ⟨rfl, rfl, rfl⟩
    · exact ⟨rfl, rfl, rfl⟩
  have hlength : (s.clearExpiry id).writes.length = s.writes.length := List.length_map ..
  have hids : (s.clearExpiry id).writes.map PortWrite.id = s.writes.map PortWrite.id :=
    KeyedList.map_adjust fun w => rfl
  refine ⟨?_, h.callIds, h.waitingSorted, ?_, ?_, h.callsSorted, ?_, ?_, ?_, ?_⟩
  · rw [hlength, hids]
    exact h.writeIds
  · rw [hlength]
    exact h.waitingLt
  · rw [hlength]
    exact h.runningLt
  · rw [hlength]
    exact h.callsLt
  · intro w' hw' hwait
    obtain ⟨w, hw, hid, -, hanswer⟩ := hmem w' hw'
    rw [hanswer, hid]
    exact h.unbegun w hw (hid ▸ hwait)
  · intro w' hw' phase hphase
    obtain ⟨w, hw, hid, hpayload, hanswer⟩ := hmem w' hw'
    rw [hanswer, hid, hpayload]
    exact h.fits w hw phase (hid ▸ hphase)
  · intro w' hw' hwait hno
    obtain ⟨w, hw, hid, hpayload, hanswer⟩ := hmem w' hw'
    rw [hanswer, hid, hpayload]
    exact h.answered w hw (hid ▸ hwait) (hid ▸ hno)

/-! ### the chunk loop -/

theorem Written.first {call : ChunkCall} (hopen : call.openId = openId)
    (hbytes : call.bytes = (payload.drop 0).take config.maxWriteChunkBytes) :
    Written config payload openId 0 [] call where
  sameOpen := by
    intro call' hcall'
    rw [List.mem_singleton.mp hcall', hopen]
  chunks := by
    rw [List.nil_append, List.map_singleton, hbytes, List.drop_zero]
    exact List.singleton_prefix_chunksOf
  taken := fun call hcall => absurd hcall List.not_mem_nil
  bytes := rfl

theorem Written.length {before : List ChunkCall} {last : ChunkCall}
    (h : Written config payload openId bytesWritten before last) :
    bytesWritten + last.bytes.length = ((before ++ [last]).map ChunkCall.bytes).flatten.length := by
  rw [List.map_append, List.flatten_append, List.length_append, ← h.bytes, List.map_singleton,
    List.flatten_singleton]

theorem Written.next {before : List ChunkCall} {last call : ChunkCall}
    (h : Written config payload openId bytesWritten before last)
    (htaken : last.IsTaken) (hmore : bytesWritten + last.bytes.length < payload.length)
    (hopen : call.openId = openId)
    (hbytes : call.bytes = (payload.drop (bytesWritten + last.bytes.length)).take
      config.maxWriteChunkBytes) :
    Written config payload openId (bytesWritten + last.bytes.length) (before ++ [last]) call where
  sameOpen := by
    intro call' hcall'
    rcases List.mem_append.mp hcall' with hcall' | hcall'
    · exact h.sameOpen call' hcall'
    · rw [List.mem_singleton.mp hcall', hopen]
  chunks := by
    have hne : (before ++ [last]).map ChunkCall.bytes ≠ [] := by simp
    have hnext := (h.chunks.concat_chunksOf config.chunkBytes_pos hne (h.length ▸ hmore)).2
    rw [← h.length] at hnext
    rw [List.map_append, List.map_singleton, hbytes]
    exact hnext
  taken := by
    intro call' hcall'
    rcases List.mem_append.mp hcall' with hcall' | hcall'
    · exact h.taken call' hcall'
    · rw [List.mem_singleton.mp hcall']
      exact htaken
  bytes := h.length

/-- Once nothing is left, every chunk of the payload has been taken. -/
theorem Written.all {before : List ChunkCall} {last : ChunkCall}
    (h : Written config payload openId bytesWritten before last)
    (htaken : last.IsTaken) (hall : payload.length ≤ bytesWritten + last.bytes.length) :
    Answered config payload (before ++ [last]) (some .done) := by
  have hne : (before ++ [last]).map ChunkCall.bytes ≠ [] := by simp
  refine ⟨h.chunks.eq_chunksOf config.chunkBytes_pos hne (h.length ▸ hall), ?_, openId, h.sameOpen⟩
  intro call hcall
  rcases List.mem_append.mp hcall with hcall | hcall
  · exact h.taken call hcall
  · rw [List.mem_singleton.mp hcall]
    exact htaken

/-- A round of the loop, given that the chunk it writes is the next one of the payload. -/
theorem Ordered.writeChunk (h : Ordered config s) {w : PortWrite} {phase : JobPhase}
    (isThrown : Bool)
    (hrunning : s.running = some ⟨w.id, phase⟩) (hw : w ∈ s.writes) (hanswer : w.answer = none)
    (hnext : ∀ call : ChunkCall, call.openId = openId →
      call.bytes = (w.payload.drop bytesWritten).take config.maxWriteChunkBytes →
      Written config w.payload openId bytesWritten (s.callsOf w.id) call) :
    Ordered config (s.writeChunk config w openId bytesWritten isThrown) := by
  have hunique : ∀ w' ∈ s.writes, w'.id = w.id → w' = w :=
    fun w' hw' hid => h.distinct.eq_of_mem hw' hw hid
  have hids : ∀ call : ChunkCall, call.id = s.calls.length →
      (s.calls ++ [call]).map ChunkCall.id = List.range (s.calls ++ [call]).length := by
    intro call hid
    rw [List.map_append, h.callIds, List.map_singleton, hid, List.length_append,
      List.length_singleton, List.range_succ]
  unfold PortWriter.writeChunk
  dsimp only
  split
  · refine h.runJob (fun w => w.settle .threw) _ hrunning rfl rfl rfl (fun w =>
      ⟨rfl, rfl⟩) rfl ?_ ?_ ?_
    · exact fun call hcall => by rw [List.mem_singleton.mp hcall]
    · exact hids _ rfl
    · intro w' hw' hid _
      rw [hunique w' hw' hid]
      change Answered config w.payload _ (some (w.answer.getD .threw))
      rw [hanswer]
      exact ⟨openId, bytesWritten, s.calls.length, s.callsOf w.id, _, rfl,
        hnext _ rfl rfl, rfl, rfl⟩
  · refine h.runJob (fun w => w) _ hrunning rfl rfl ?_ (fun w => ⟨rfl, rfl⟩) rfl ?_ ?_ ?_
    · exact (KeyedList.adjust_eq_self fun w _ _ => rfl).symm
    · exact fun call hcall => by rw [List.mem_singleton.mp hcall]
    · exact hids _ rfl
    · intro w' hw' hid _
      rw [hunique w' hw' hid]
      exact ⟨hanswer, s.callsOf w.id, _, rfl, hnext _ rfl rfl, rfl, rfl, rfl⟩

theorem not_saysUnbegun_timedOut : ¬ saysUnbegun ⟨.WRITE_TIMEOUT, none, some bytesWritten⟩ := by
  rintro (h | h)
  · cases h
  · cases h

theorem not_saysUnbegun_writeFailed : ¬ saysUnbegun ⟨.WRITE_FAILED, none, some bytesWritten⟩ := by
  rintro (h | h)
  · cases h
  · cases h

theorem answered_notBegun : Answered config payload [] (some notBegun) :=
  Or.inl ⟨Or.inr rfl, rfl, rfl⟩

theorem answered_notConnected : Answered config payload [] (some notConnected) :=
  Or.inl ⟨Or.inl rfl, rfl, rfl⟩

/-- A job that has not begun ends. -/
theorem Ordered.endUnbegun (h : Ordered config s) {w : PortWrite} {phase : JobPhase}
    {ending : WriteAnswer}
    (hrunning : s.running = some ⟨w.id, phase⟩) (hw : w ∈ s.writes)
    (hunbegun : w.answer = none ∧ s.callsOf w.id = [])
    (hending : Answered config w.payload [] (some ending)) :
    Ordered config (s.endJob w.id ending) := by
  refine h.endJob hrunning fun w' hw' hid _ => ?_
  obtain rfl := h.distinct.eq_of_mem hw' hw hid
  rw [hunbegun.1, hunbegun.2]
  exact hending

theorem Ordered.begin (h : Ordered config s) {w : PortWrite} {phase : JobPhase}
    (isApproved isThrown : Bool)
    (hrunning : s.running = some ⟨w.id, phase⟩) (hw : w ∈ s.writes)
    (hunbegun : w.answer = none ∧ s.callsOf w.id = []) :
    Ordered config (s.begin config w isApproved isThrown) := by
  unfold PortWriter.begin
  split
  · exact h.endUnbegun hrunning hw hunbegun answered_notConnected
  · split
    · refine h.writeChunk isThrown hrunning hw hunbegun.1 fun call hopen hbytes => ?_
      rw [hunbegun.2]
      exact Written.first hopen hbytes
    · exact h.endUnbegun hrunning hw hunbegun answered_notBegun

theorem Ordered.chunkTaken (h : Ordered config s) {w : PortWrite} {call : ChunkCall}
    (isThrown : Bool)
    (hrunning : s.running = some ⟨w.id, .settled openId bytesWritten call.id .taken⟩)
    (hw : w ∈ s.writes)
    (hcall : call ∈ s.calls) :
    Ordered config (s.chunkTaken config w openId bytesWritten call isThrown) := by
  obtain ⟨hanswer, before, last, hcalls, hwritten, hid, htaken⟩ := h.fits w hw _ hrunning
  have hlast : last ∈ s.calls :=
    (List.mem_filter.mp (show last ∈ s.callsOf w.id by rw [hcalls]; simp)).1
  obtain rfl := h.distinctCalls.eq_of_mem hlast hcall hid
  have hsent : Ordered config { s with bytesSent := s.bytesSent + last.bytes.length } :=
    h.of_same rfl rfl rfl rfl
  unfold PortWriter.chunkTaken
  dsimp only
  split
  · next hmore =>
    refine hsent.writeChunk isThrown hrunning hw hanswer fun call hopen hbytes => ?_
    have hsame : PortWriter.callsOf
        { s with bytesSent := s.bytesSent + last.bytes.length } w.id = before ++ [last] := hcalls
    rw [hsame]
    exact hwritten.next htaken hmore hopen hbytes
  · next hall =>
    refine hsent.endJob hrunning fun w' hw' hid _ => ?_
    obtain rfl := h.distinct.eq_of_mem hw' hw hid
    have hsame : PortWriter.callsOf
        { s with bytesSent := s.bytesSent + last.bytes.length } w'.id = before ++ [last] := hcalls
    rw [hsame, hanswer]
    exact hwritten.all htaken (Nat.le_of_not_lt hall)

theorem Ordered.loseConnection (h : Ordered config s) (openId : OpenId) :
    Ordered config (s.loseConnection openId) := by
  unfold PortWriter.loseConnection
  split
  · exact h.of_same rfl rfl rfl rfl
  · exact h

theorem loseConnection_running : (s.loseConnection openId).running = s.running := by
  unfold loseConnection
  split
  · rfl
  · rfl

theorem Ordered.chunkRejected (h : Ordered config s) {id : WriteId}
    (hrunning : s.running = some ⟨id, .settled openId bytesWritten chunk .rejected⟩) :
    Ordered config ((s.loseConnection openId).endJob id (writeFailed bytesWritten)) := by
  refine (h.loseConnection openId).endJob (loseConnection_running.trans hrunning)
    fun w hw hid hfits => ?_
  obtain ⟨hanswer, hcur⟩ := hfits
  rw [hanswer]
  exact Or.inr ⟨not_saysUnbegun_writeFailed, openId, bytesWritten, chunk, rfl,
    hcur.imp fun call hP => Or.inr (Or.inl hP.1)⟩

/-- A job whose write was answered when its chunk outlived the deadline. -/
theorem Ordered.endStalled (h : Ordered config s) {id : WriteId} {result : StallResult}
    {ending : WriteAnswer}
    (hrunning : s.running = some ⟨id, .unstalled openId chunk result⟩) :
    Ordered config (s.endJob id ending) := by
  refine h.endJob hrunning fun w hw hid hfits => ?_
  obtain ⟨bytesWritten, hanswer, hcur⟩ := hfits
  rw [hanswer]
  exact Or.inr ⟨not_saysUnbegun_timedOut, openId, bytesWritten, chunk, rfl,
    hcur.imp fun call hP => Or.inl hP⟩

theorem Ordered.stallEnded (h : Ordered config s) {w : PortWrite} {call : ChunkCall}
    {result : StallResult}
    (hrunning : s.running = some ⟨w.id, .unstalled openId chunk result⟩) :
    Ordered config (s.stallEnded w openId call result) := by
  have hcleared : Ordered config { s with connectionEnded := none } := h.of_same rfl rfl rfl rfl
  unfold PortWriter.stallEnded
  cases result with
  | taken =>
    have hsent : Ordered config
        { s with connectionEnded := none, bytesSent := s.bytesSent + call.bytes.length } :=
      h.of_same rfl rfl rfl rfl
    exact hsent.endStalled hrunning
  | rejected =>
    exact (hcleared.loseConnection openId).endStalled (loseConnection_running.trans hrunning)
  | ended => exact hcleared.endStalled hrunning

theorem Ordered.awaitStalledWrite (h : Ordered config s) {w : PortWrite} {call : ChunkCall}
    (hrunning : s.running = some ⟨w.id, .settled openId bytesWritten call.id .timedOut⟩) :
    Ordered config ((s.answer w.id (timedOut bytesWritten)).awaitStalledWrite w openId call) := by
  have hjob : ∀ phase, phase = .stalled openId call.id ∨
      (∃ result, phase = .unstalled openId call.id result) →
      Ordered config (({ s.answer w.id (timedOut bytesWritten) with
        connectionEnded := some call.id }).wait w.id phase) := by
    intro phase hphase
    refine h.runJob (fun w => w.settle (timedOut bytesWritten)) [] hrunning rfl rfl rfl
        (fun w => ⟨rfl, rfl⟩)
      (List.append_nil _).symm (fun call hcall => absurd hcall List.not_mem_nil) h.callIds ?_
    intro w' hw' hid hfits
    obtain ⟨hanswer, hcur⟩ := hfits
    rw [List.append_nil]
    have hsettled : (w'.settle (timedOut bytesWritten)).answer = some (timedOut bytesWritten) := by
      rw [PortWrite.settle, hanswer]
      rfl
    rcases hphase with rfl | ⟨result, rfl⟩
    · exact ⟨bytesWritten, hsettled, hcur⟩
    · exact ⟨bytesWritten, hsettled, hcur⟩
  unfold PortWriter.awaitStalledWrite
  dsimp only
  split
  · exact hjob _ (Or.inl rfl)
  · exact hjob _ (Or.inr ⟨_, rfl⟩)
  · exact hjob _ (Or.inr ⟨_, rfl⟩)

theorem Ordered.goOn (h : Ordered config s) {isThrown : Bool}
    (hgo : s.goOn config isThrown = some s') : Ordered config s' := by
  unfold PortWriter.goOn at hgo
  split at hgo
  · next id isApproved hrunning =>
    obtain ⟨w, hw, rfl⟩ := Option.map_eq_some_iff.mp hgo
    obtain ⟨hmem, rfl⟩ := h.distinct.lookup_iff.mp hw
    exact h.begin isApproved isThrown hrunning hmem (h.fits w hmem _ hrunning)
  · next id openId bytesWritten chunk result hrunning =>
    split at hgo
    · next w call hw hcall =>
      obtain ⟨hmem, rfl⟩ := h.distinct.lookup_iff.mp hw
      obtain ⟨hmemCall, rfl⟩ := h.distinctCalls.lookup_iff.mp hcall
      cases result with
      | taken =>
        cases hgo
        exact h.chunkTaken isThrown hrunning hmem hmemCall
      | rejected =>
        cases hgo
        exact h.chunkRejected hrunning
      | timedOut =>
        cases hgo
        exact h.awaitStalledWrite hrunning
    · cases hgo
  · next id openId chunk result hrunning =>
    split at hgo
    · next w call hw hcall =>
      cases hgo
      obtain ⟨-, rfl⟩ := h.distinct.lookup_iff.mp hw
      exact h.stallEnded hrunning
    · cases hgo
  · cases hgo

/-! ### the queue -/

/-- The next job leaves the queue. -/
theorem Ordered.take (h : Ordered config s) {id : WriteId} {rest : List WriteId}
    (hnone : s.running = none)
    (hwaiting : s.waiting = id :: rest) (withinMs : Nat) :
    Ordered config { s with waiting := rest, running := some ⟨id, .asking withinMs⟩ } := by
  have hsorted := h.waitingSorted
  rw [hwaiting, List.pairwise_cons] at hsorted
  have hid : id ∈ s.waiting := hwaiting ▸ List.mem_cons_self
  have hrest : ∀ id' ∈ rest, id' ∈ s.waiting :=
    fun id' hid' => hwaiting ▸ List.mem_cons_of_mem _ hid'
  refine ⟨h.writeIds, h.callIds, hsorted.2, fun id' hid' => h.waitingLt id' (hrest id' hid'), ?_,
    h.callsSorted, ?_, ?_, ?_, ?_⟩
  · intro job hjob
    cases hjob
    exact ⟨h.waitingLt id hid, hsorted.1⟩
  · intro call hcall
    obtain ⟨hlt, hbefore, -⟩ := h.callsLt call hcall
    refine ⟨hlt, fun id' hid' => hbefore id' (hrest id' hid'), fun job hjob => ?_⟩
    cases hjob
    exact Nat.le_of_lt (hbefore id hid)
  · exact fun w hw hwait => h.unbegun w hw (hrest _ hwait)
  · intro w hw phase hphase
    simp only [Option.some.injEq, WritingJob.mk.injEq] at hphase
    obtain ⟨hid', rfl⟩ := hphase
    exact h.unbegun w hw (hid' ▸ hid)
  · intro w hw hwait hno
    refine h.answered w hw (fun hmem => ?_) fun phase hphase =>
      by rw [hnone] at hphase; cases hphase
    rw [hwaiting] at hmem
    rcases List.mem_cons.mp hmem with rfl | hmem
    · exact hno _ rfl
    · exact hwait hmem

theorem Ordered.startJob (h : Ordered config s) {w : PortWrite} {withinMs : Nat}
    (hrunning : s.running = some ⟨w.id, .asking withinMs⟩)
    (hw : w ∈ s.writes) : Ordered config (s.startJob config w) := by
  have hcleared := h.clearExpiry w.id
  have hmem : w.clearExpiry ∈ (s.clearExpiry w.id).writes :=
    KeyedList.mem_adjust.mpr ⟨w, hw, (if_pos rfl).symm⟩
  have hunbegun : w.answer = none ∧ s.callsOf w.id = [] := h.fits w hw _ hrunning
  unfold PortWriter.startJob
  dsimp only
  split
  · exact hcleared.endUnbegun (w := w.clearExpiry) hrunning hmem hunbegun answered_notBegun
  · split
    · exact hcleared.endUnbegun (w := w.clearExpiry) hrunning hmem hunbegun answered_notConnected
    · exact hcleared.wait hrunning fun w' _ _ hfits => hfits

theorem Ordered.startNext (h : Ordered config s) : Ordered config (s.startNext config) := by
  unfold PortWriter.startNext
  split
  · next id waiting hnone hwaiting =>
    split
    · next w hw =>
      obtain ⟨hmem, rfl⟩ := h.distinct.lookup_iff.mp hw
      have htaken := (h.take hnone hwaiting 0).startJob rfl hmem
      unfold PortWriter.startJob at htaken ⊢
      exact htaken
    · exact h
  · exact h

theorem Ordered.stopRunning (h : Ordered config s) {id : WriteId}
    (hrunning : s.running = some ⟨id, .ended⟩) :
    Ordered config { s with running := none } := by
  refine ⟨h.writeIds, h.callIds, h.waitingSorted, h.waitingLt, fun job hjob => ?_, h.callsSorted,
    ?_, h.unbegun, ?_, ?_⟩
  · cases hjob
  · intro call hcall
    obtain ⟨hlt, hbefore, -⟩ := h.callsLt call hcall
    exact ⟨hlt, hbefore, fun job hjob => by cases hjob⟩
  · intro w hw phase hphase
    cases hphase
  · intro w hw hwait _
    by_cases hid : w.id = id
    · exact h.fits w hw _ (hid ▸ hrunning)
    · refine h.answered w hw hwait fun phase hphase => ?_
      rw [hrunning] at hphase
      simp only [Option.some.injEq, WritingJob.mk.injEq] at hphase
      exact hid hphase.1.symm

theorem Ordered.write (h : Ordered config s) (payload : Payload) :
    Ordered config (s.write config payload) := by
  have hof : (s.write config payload).callsOf = s.callsOf := rfl
  have hnew : s.callsOf s.writes.length = [] := by
    refine List.filter_eq_nil_iff.mpr fun call hcall => ?_
    simpa using Nat.ne_of_lt (h.callsLt call hcall).1
  have hold : ∀ w ∈ s.writes, w.id < s.writes.length := fun w hw =>
    List.mem_range.mp (h.writeIds ▸ List.mem_map_of_mem hw)
  have hmem : ∀ w ∈ s.writes, w.id ∉ s.waiting → w.id ∉ (s.write config payload).waiting := by
    intro w hw hnot hwait
    rcases List.mem_append.mp hwait with hwait | hwait
    · exact hnot hwait
    · exact absurd (List.mem_singleton.mp hwait) (Nat.ne_of_lt (hold w hw))
  refine ⟨?_, h.callIds, ?_, ?_, ?_, h.callsSorted, ?_, ?_, ?_, ?_⟩
  · change (s.writes ++ [_]).map PortWrite.id = List.range (s.writes ++ [_]).length
    rw [List.map_append, h.writeIds, List.length_append, List.length_singleton, List.range_succ]
    rfl
  · refine List.pairwise_append.mpr ⟨h.waitingSorted, List.pairwise_singleton _ _,
      fun id hid id' hid' => ?_⟩
    rw [List.mem_singleton.mp hid']
    exact h.waitingLt id hid
  · intro id hid
    change id < (s.writes ++ [_]).length
    rw [List.length_append, List.length_singleton]
    rcases List.mem_append.mp hid with hid | hid
    · exact Nat.lt_succ_of_lt (h.waitingLt id hid)
    · rw [List.mem_singleton.mp hid]
      exact Nat.lt_succ_self _
  · intro job hjob
    obtain ⟨hlt, hbefore⟩ := h.runningLt job hjob
    change job.write < (s.writes ++ [_]).length ∧ _
    rw [List.length_append, List.length_singleton]
    refine ⟨Nat.lt_succ_of_lt hlt, fun id hid => ?_⟩
    rcases List.mem_append.mp hid with hid | hid
    · exact hbefore id hid
    · rw [List.mem_singleton.mp hid]
      exact hlt
  · intro call hcall
    obtain ⟨hlt, hbefore, hrun⟩ := h.callsLt call hcall
    change call.write < (s.writes ++ [_]).length ∧ _
    rw [List.length_append, List.length_singleton]
    refine ⟨Nat.lt_succ_of_lt hlt, fun id hid => ?_, hrun⟩
    rcases List.mem_append.mp hid with hid | hid
    · exact hbefore id hid
    · rw [List.mem_singleton.mp hid]
      exact hlt
  · intro w hw hwait
    rw [hof]
    rcases List.mem_append.mp hw with hw | hw
    · rcases List.mem_append.mp hwait with hwait | hwait
      · exact h.unbegun w hw hwait
      · exact absurd (List.mem_singleton.mp hwait) (Nat.ne_of_lt (hold w hw))
    · rw [List.mem_singleton.mp hw]
      exact ⟨rfl, hnew⟩
  · intro w hw phase hphase
    rw [hof]
    rcases List.mem_append.mp hw with hw | hw
    · exact h.fits w hw phase hphase
    · rw [List.mem_singleton.mp hw] at hphase
      exact absurd (h.runningLt _ hphase).1 (Nat.lt_irrefl _)
  · intro w hw hwait hno
    rw [hof]
    rcases List.mem_append.mp hw with hw | hw
    · exact h.answered w hw (fun hmem => hwait (List.mem_append_left _ hmem)) hno
    · rw [List.mem_singleton.mp hw] at hwait
      exact absurd (List.mem_append_right _ (List.mem_singleton_self _)) hwait

theorem Ordered.expire (h : Ordered config s) (id : WriteId) : Ordered config (s.expire id) := by
  unfold PortWriter.expire
  split
  · next hid =>
    have hnodup : s.waiting.Nodup := h.waitingSorted.imp fun hlt => Nat.ne_of_lt hlt
    have hwait : ∀ id', id' ∈ s.waiting.erase id ↔ id' ≠ id ∧ id' ∈ s.waiting :=
      fun id' => hnodup.mem_erase_iff
    have hmem : ∀ w' ∈ KeyedList.adjust PortWrite.id id (fun w => w.settle notBegun) s.writes,
        ∃ w ∈ s.writes, w' = if w.id = id then w.settle notBegun else w :=
        fun w' hw' => KeyedList.mem_adjust.mp hw'
    have hlength : (KeyedList.adjust PortWrite.id id (fun w =>
        w.settle notBegun) s.writes).length = s.writes.length :=
      List.length_map ..
    have hids : (KeyedList.adjust PortWrite.id id (fun w => w.settle notBegun) s.writes).map
      PortWrite.id
        = s.writes.map PortWrite.id := KeyedList.map_adjust fun w => rfl
    refine ⟨?_, h.callIds, h.waitingSorted.sublist List.erase_sublist, ?_, ?_, h.callsSorted,
      ?_, ?_, ?_, ?_⟩
    · exact hids.trans (h.writeIds.trans (congrArg List.range hlength.symm))
    · exact fun id' hid' =>
        Nat.lt_of_lt_of_eq (h.waitingLt id' ((hwait id').mp hid').2) hlength.symm
    · intro job hjob
      obtain ⟨hlt, hbefore⟩ := h.runningLt job hjob
      exact ⟨Nat.lt_of_lt_of_eq hlt hlength.symm, fun id' hid' =>
        hbefore id' ((hwait id').mp hid').2⟩
    · intro call hcall
      obtain ⟨hlt, hbefore, hrun⟩ := h.callsLt call hcall
      exact ⟨Nat.lt_of_lt_of_eq hlt hlength.symm,
        fun id' hid' => hbefore id' ((hwait id').mp hid').2, hrun⟩
    · intro w' hw' hwait'
      obtain ⟨w, hw, rfl⟩ := hmem w' hw'
      obtain ⟨hne, hin⟩ := (hwait _).mp hwait'
      split at hne
      · next heq => exact absurd heq hne
      · next hne =>
        rw [if_neg hne] at hin ⊢
        exact h.unbegun w hw hin
    · intro w' hw' phase hphase
      obtain ⟨w, hw, rfl⟩ := hmem w' hw'
      have hne : w.id ≠ id := by
        rintro rfl
        rw [if_pos rfl] at hphase
        exact absurd ((h.runningLt _ hphase).2 w.id hid) (Nat.lt_irrefl _)
      rw [if_neg hne] at hphase ⊢
      exact h.fits w hw phase hphase
    · intro w' hw' hwait' hno
      obtain ⟨w, hw, rfl⟩ := hmem w' hw'
      by_cases hne : w.id = id
      · obtain ⟨hanswer, hcalls⟩ := h.unbegun w hw (hne ▸ hid)
        rw [if_pos hne]
        change Answered config w.payload (s.callsOf w.id) (some (w.answer.getD notBegun))
        rw [hanswer, hcalls]
        exact answered_notBegun
      · rw [if_neg hne] at hwait' hno ⊢
        exact h.answered w hw (fun hin => hwait' ((hwait w.id).mpr ⟨hne, hin⟩)) hno
  · exact h.clearExpiry id

/-! ### a chunk settles, or its deadline passes -/

/-- What a change of the calls of one chunk asks of the change: only what became of a pending chunk
is written. -/
structure Settles (s : PortWriter) (k : ChunkId) (f : ChunkCall → ChunkCall) : Prop where
  same : ∀ call, (f call).id = call.id ∧ (f call).openId = call.openId ∧ (f call).bytes = call.bytes
  write : ∀ call, (f call).write = call.write
  late : ∀ call, call.isLate = true → (f call).isLate = true
  pending : ∀ call ∈ s.calls, call.id = k → call.outcome = none

theorem Ordered.settles (h : Ordered config s) {k : ChunkId} {f : ChunkCall → ChunkCall}
    {g : JobPhase → JobPhase}
    (hsettles : Settles s k f) (hwrites : s'.writes = s.writes) (hwaiting : s'.waiting = s.waiting)
    (hcalls : s'.calls = KeyedList.adjust ChunkCall.id k f s.calls)
    (hrunning : s'.running = s.running.map fun job => ⟨job.write, g job.phase⟩)
    (hfits : ∀ w ∈ s.writes, ∀ phase, s.running = some ⟨w.id, phase⟩ →
      Fits config w.payload w.answer (s.callsOf w.id) phase →
      Fits config w.payload w.answer (KeyedList.adjust ChunkCall.id k f (s.callsOf w.id))
      (g phase)) : Ordered config s' := by
  have hof : ∀ id, s'.callsOf id = KeyedList.adjust ChunkCall.id k f (s.callsOf id) := by
    intro id
    rw [callsOf, hcalls, callsOf]
    exact KeyedList.filter_adjust fun call => by rw [hsettles.write]
  have hids : s'.calls.map ChunkCall.id = s.calls.map ChunkCall.id := by
    rw [hcalls]
    exact KeyedList.map_adjust fun call => (hsettles.same call).1
  have howners : s'.calls.map ChunkCall.write = s.calls.map ChunkCall.write := by
    rw [hcalls]
    exact KeyedList.map_adjust fun call => hsettles.write call
  have hlength : s'.calls.length = s.calls.length := by rw [hcalls, KeyedList.length_adjust]
  have hjobs : ∀ job', s'.running = some job' →
      ∃ job, s.running = some job ∧ job' = ⟨job.write, g job.phase⟩ := by
    intro job' hjob'
    rw [hrunning] at hjob'
    obtain ⟨job, hjob, rfl⟩ := Option.map_eq_some_iff.mp hjob'
    exact ⟨job, hjob, rfl⟩
  refine ⟨?_, ?_, ?_, ?_, ?_, ?_, ?_, ?_, ?_, ?_⟩
  · rw [hwrites]
    exact h.writeIds
  · rw [hids, hlength]
    exact h.callIds
  · rw [hwaiting]
    exact h.waitingSorted
  · rw [hwaiting, hwrites]
    exact h.waitingLt
  · intro job' hjob'
    obtain ⟨job, hjob, rfl⟩ := hjobs job' hjob'
    rw [hwrites, hwaiting]
    exact h.runningLt job hjob
  · have hsorted := List.pairwise_map.mpr h.callsSorted
    rw [← howners] at hsorted
    exact List.pairwise_map.mp hsorted
  · intro call' hcall'
    have howner : call'.write ∈ s.calls.map ChunkCall.write := howners ▸ List.mem_map_of_mem hcall'
    obtain ⟨call, hcall, heq⟩ := List.mem_map.mp howner
    obtain ⟨hlt, hbefore, hrun⟩ := h.callsLt call hcall
    rw [← heq, hwrites, hwaiting]
    refine ⟨hlt, hbefore, fun job' hjob' => ?_⟩
    obtain ⟨job, hjob, rfl⟩ := hjobs job' hjob'
    exact hrun job hjob
  · intro w hw hwait
    rw [hwrites] at hw
    rw [hwaiting] at hwait
    obtain ⟨hanswer, hnone⟩ := h.unbegun w hw hwait
    rw [hof, hnone]
    exact ⟨hanswer, rfl⟩
  · intro w hw phase' hphase'
    rw [hwrites] at hw
    obtain ⟨⟨id, phase⟩, hjob, heq⟩ := hjobs _ hphase'
    cases heq
    rw [hof]
    exact hfits w hw phase hjob (h.fits w hw phase hjob)
  · intro w hw hwait hno
    rw [hwrites] at hw
    rw [hwaiting] at hwait
    rw [hof]
    refine (h.answered w hw hwait fun phase hphase => ?_).adjust hsettles.same hsettles.late
        fun call hcall =>
      hsettles.pending call (List.mem_filter.mp hcall).1
    exact hno (g phase) (by rw [hrunning, hphase]; rfl)

/-- A chunk that is not the one the running job waits for. -/
theorem Fits.settles {k : ChunkId} {f : ChunkCall → ChunkCall} (hsettles : Settles s k f)
    {id : WriteId} {phase : JobPhase}
    (h : Fits config payload answer (s.callsOf id) phase)
    (hother : ∀ openId bytesWritten due, phase ≠ .writing openId bytesWritten k due) :
    Fits config payload answer (KeyedList.adjust ChunkCall.id k f (s.callsOf id)) phase := by
  have hpending : ∀ call ∈ s.callsOf id, call.id = k → call.outcome = none := fun call hcall =>
    hsettles.pending call (List.mem_filter.mp hcall).1
  have htaken : ∀ call ∈ s.callsOf id, call.IsTaken → call.id ≠ k := by
    intro call hcall htaken hk
    have hout := htaken.1
    rw [hpending call hcall hk] at hout
    cases hout
  have hlate : ∀ last ∈ s.callsOf id, last.isLate = true →
      (if last.id = k then f last else last).isLate = true := by
    intro last _ hlate
    split
    · exact hsettles.late last hlate
    · exact hlate
  cases phase with
  | asking | awaitingAnswer | answered =>
    obtain ⟨hanswer, hnone⟩ := h
    rw [hnone]
    exact ⟨hanswer, rfl⟩
  | writing openId bytesWritten chunk due =>
    obtain ⟨hanswer, before, last, hcalls, hwritten, rfl, hP⟩ := h
    have hne : last.id ≠ k := fun heq => hother openId bytesWritten due (by rw [heq])
    have hcur : Current config payload openId bytesWritten last.id (fun call =>
      call.id = last.id ∧ call.outcome = none ∧ call.isLate = false)
        (s.callsOf id) := ⟨before, last, hcalls, hwritten, rfl, rfl, hP⟩
    refine ⟨hanswer, hcur.adjust hsettles.same htaken fun call _ hcall => ?_⟩
    rw [if_neg fun hk => hne (hcall.1 ▸ hk)]
    exact hcall.2
  | settled openId bytesWritten chunk result =>
    cases result with
    | taken =>
      obtain ⟨hanswer, hcur⟩ := h
      refine ⟨hanswer, hcur.adjust hsettles.same htaken fun last hmem hP => ?_⟩
      rw [if_neg (htaken last hmem hP)]
      exact hP
    | rejected =>
      obtain ⟨hanswer, hcur⟩ := h
      refine ⟨hanswer, hcur.adjust hsettles.same htaken fun last hmem hP => ?_⟩
      have hne : last.id ≠ k := by
        intro hk
        have hout := hP.1
        rw [hpending last hmem hk] at hout
        cases hout
      rw [if_neg hne]
      exact hP
    | timedOut =>
      obtain ⟨hanswer, hcur⟩ := h
      exact ⟨hanswer, hcur.adjust hsettles.same htaken hlate⟩
  | stalled openId chunk =>
    obtain ⟨bytesWritten, hanswer, hcur⟩ := h
    exact ⟨bytesWritten, hanswer, hcur.adjust hsettles.same htaken hlate⟩
  | unstalled openId chunk result =>
    obtain ⟨bytesWritten, hanswer, hcur⟩ := h
    exact ⟨bytesWritten, hanswer, hcur.adjust hsettles.same htaken hlate⟩
  | ended => exact Answered.adjust h hsettles.same hsettles.late hpending

theorem Ordered.settle (h : Ordered config s) {call : ChunkCall} (isTaken : Bool)
    (hcall : call ∈ s.calls)
    (hpending : call.outcome = none) : Ordered config (s.settle call.id isTaken) := by
  have hsettles : Settles s call.id fun call =>
      { call with outcome := some (if isTaken then .taken else .rejected) } := by
    refine ⟨fun call => ⟨rfl, rfl, rfl⟩, fun call => rfl, fun call hlate => hlate,
      fun call' hcall' hid => ?_⟩
    rw [h.distinctCalls.eq_of_mem hcall' hcall hid]
    exact hpending
  refine h.settles hsettles rfl rfl rfl rfl fun w hw phase hphase hfits => ?_
  have hown : ∀ last ∈ s.callsOf w.id, last.id = call.id → last.outcome = none := fun last hlast =>
    hsettles.pending last (List.mem_filter.mp hlast).1
  have htaken : ∀ last ∈ s.callsOf w.id, last.IsTaken → last.id ≠ call.id := by
    intro last hlast htaken hid
    have hout := htaken.1
    rw [hown last hlast hid] at hout
    cases hout
  cases phase with
  | writing openId bytesWritten chunk due =>
    by_cases hchunk : chunk = call.id
    · -- the chunk the job waits for: the job hears of it
      obtain ⟨hanswer, before, last, hcalls, hwritten, hid, hout, hlate⟩ := hfits
      have hcur : Current config w.payload openId bytesWritten chunk (fun call =>
        call.id = chunk ∧ call.isLate = false)
          (s.callsOf w.id) := ⟨before, last, hcalls, hwritten, hid, hid, hlate⟩
      have hhear : hear call.id isTaken (.writing openId bytesWritten chunk due)
          = .settled openId bytesWritten chunk (if isTaken then .taken else .rejected) :=
            if_pos hchunk
      rw [hhear]
      cases isTaken with
      | true =>
        refine ⟨hanswer, hcur.adjust hsettles.same htaken fun last _ hlast => ?_⟩
        rw [if_pos (hlast.1.trans hchunk)]
        exact ⟨rfl, hlast.2⟩
      | false =>
        refine ⟨hanswer, hcur.adjust hsettles.same htaken fun last _ hlast => ?_⟩
        rw [if_pos (hlast.1.trans hchunk)]
        exact ⟨rfl, hlast.2⟩
    · have hhear : hear call.id isTaken (.writing openId bytesWritten chunk due) = .writing openId
          bytesWritten chunk due :=
        if_neg hchunk
      rw [hhear]
      refine hfits.settles hsettles fun openId' bytesWritten' due' heq => ?_
      cases heq
      exact hchunk rfl
  | stalled openId chunk =>
    have hkept := hfits.settles hsettles fun openId' bytesWritten' due' heq => by cases heq
    by_cases hchunk : chunk = call.id
    · have hhear : hear call.id isTaken (.stalled openId chunk)
          = .unstalled openId chunk (if isTaken then .taken else .rejected) := if_pos hchunk
      rw [hhear]
      exact hkept
    · have hhear : hear call.id isTaken (.stalled openId chunk) = .stalled openId chunk :=
        if_neg hchunk
      rw [hhear]
      exact hkept
  | asking | awaitingAnswer | answered | settled | unstalled | ended =>
    exact hfits.settles hsettles fun openId' bytesWritten' due' heq => by cases heq

theorem Ordered.passDeadline (h : Ordered config s) {id : WriteId} {due : Nat}
    (hrunning : s.running = some ⟨id, .writing openId bytesWritten chunk due⟩) :
    Ordered config (s.passDeadline id openId bytesWritten chunk) := by
  obtain ⟨w₀, hw₀, -, rfl⟩ := h.exists_write (h.runningLt _ hrunning).1
  obtain ⟨-, before₀, last₀, hcalls₀, -, hchunk₀, hout₀, -⟩ := h.fits w₀ hw₀ _ hrunning
  have hlast₀ : last₀ ∈ s.calls :=
    (List.mem_filter.mp (show last₀ ∈ s.callsOf w₀.id by rw [hcalls₀]; simp)).1
  have hsettles : Settles s chunk fun call => { call with isLate := true } := by
    refine ⟨fun call => ⟨rfl, rfl, rfl⟩, fun call => rfl, fun call _ => rfl,
      fun call hcall hid => ?_⟩
    rw [h.distinctCalls.eq_of_mem hcall hlast₀ (hid.trans hchunk₀.symm)]
    exact hout₀
  refine h.settles (g := fun _ => .settled openId bytesWritten chunk .timedOut) hsettles
      rfl rfl rfl ?_
    fun w hw phase hphase hfits => ?_
  · rw [hrunning]
    rfl
  · rw [hrunning] at hphase
    simp only [Option.some.injEq, WritingJob.mk.injEq] at hphase
    obtain ⟨-, rfl⟩ := hphase
    obtain ⟨hanswer, before, last, hcalls, hwritten, hid, hout, -⟩ := hfits
    have hcur : Current config w.payload openId bytesWritten chunk (fun call =>
        call.id = chunk) (s.callsOf w.id) :=
      ⟨before, last, hcalls, hwritten, hid, hid⟩
    have htaken : ∀ call ∈ s.callsOf w.id, call.IsTaken → call.id ≠ chunk := by
      intro call hcall htaken heq
      have hnone := hsettles.pending call (List.mem_filter.mp hcall).1 heq
      rw [htaken.1] at hnone
      cases hnone
    refine ⟨hanswer, hcur.adjust hsettles.same htaken fun last _ hlast => ?_⟩
    rw [if_pos hlast]

theorem Ordered.enterState (h : Ordered config s) (next : ConnectionState) :
    Ordered config (s.enterState next) := by
  unfold PortWriter.enterState
  dsimp only
  split
  · next id openId awaited _ _ hrunning =>
    have hentered : ∀ phase, phase = .unstalled openId awaited .ended ∨
        phase = .stalled openId awaited →
        Ordered config (s.wait id phase) := by
      intro phase hphase
      refine h.wait hrunning fun w _ _ hfits => ?_
      rcases hphase with rfl | rfl
      · exact hfits
      · exact hfits
    split
    · exact (hentered _ (Or.inl rfl)).of_same rfl rfl rfl rfl
    · exact (hentered _ (Or.inr rfl)).of_same rfl rfl rfl rfl
  · exact h.of_same rfl rfl rfl rfl
  · exact h.of_same rfl rfl rfl rfl

theorem ordered_init : Ordered config init := by
  refine ⟨rfl, rfl, List.Pairwise.nil, ?_, ?_, List.Pairwise.nil, ?_, ?_, ?_, ?_⟩
  · exact fun id hid => absurd hid List.not_mem_nil
  · intro job hjob
    cases hjob
  · exact fun call hcall => absurd hcall List.not_mem_nil
  · exact fun w hw => absurd hw List.not_mem_nil
  · exact fun w hw => absurd hw List.not_mem_nil
  · exact fun w hw => absurd hw List.not_mem_nil

theorem Ordered.step (h : Ordered config s) {event : WriterEvent}
    (hstep : s.step config event = some s') : Ordered config s' := by
  cases event with
  | write payload =>
    cases hstep
    exact h.write payload
  | expiryTimer id =>
    simp only [PortWriter.step] at hstep
    split at hstep
    · split at hstep
      · cases hstep
        exact h.expire id
      · cases hstep
    · cases hstep
  | startNext =>
    simp only [PortWriter.step] at hstep
    split at hstep
    · cases hstep
      have hunset : Ordered config { s with isStartScheduled := false } := h.of_same rfl rfl rfl rfl
      exact hunset.startNext
    · cases hstep
  | mayBegin answer isThrown =>
    simp only [PortWriter.step] at hstep
    split at hstep
    · next id withinMs hrunning =>
      cases answer with
      | none =>
        cases hstep
        exact h.wait hrunning fun w _ _ hfits => hfits
      | some isApproved =>
        obtain ⟨w, hw, rfl⟩ := Option.map_eq_some_iff.mp hstep
        obtain ⟨hmem, rfl⟩ := h.distinct.lookup_iff.mp hw
        exact h.begin isApproved isThrown hrunning hmem (h.fits w hmem _ hrunning)
    · cases hstep
  | answer isApproved =>
    simp only [PortWriter.step] at hstep
    split at hstep
    · next hrunning =>
      cases hstep
      exact h.wait hrunning fun w _ _ hfits => hfits
    · cases hstep
  | answerTimer =>
    simp only [PortWriter.step] at hstep
    split at hstep
    · next hrunning =>
      split at hstep
      · cases hstep
        exact h.wait hrunning fun w _ _ hfits => hfits
      · cases hstep
    · cases hstep
  | stopWaiting =>
    simp only [PortWriter.step] at hstep
    split at hstep
    · next hrunning =>
      cases hstep
      exact h.wait hrunning fun w _ _ hfits => hfits
    · cases hstep
      exact h
  | goOn isThrown => exact h.goOn hstep
  | settle chunk isTaken =>
    simp only [PortWriter.step] at hstep
    split at hstep
    · next id openId write bytes isLate hcall =>
      cases hstep
      obtain ⟨hmem, rfl⟩ := h.distinctCalls.lookup_iff.mp hcall
      exact h.settle isTaken hmem rfl
    · cases hstep
  | deadline =>
    simp only [PortWriter.step] at hstep
    split at hstep
    · next hrunning =>
      split at hstep
      · cases hstep
        exact h.passDeadline hrunning
      · cases hstep
    · cases hstep
  | finish =>
    simp only [PortWriter.step] at hstep
    split at hstep
    · next hrunning =>
      cases hstep
      exact (h.stopRunning hrunning).startNext
    · cases hstep
  | enterState next =>
    simp only [PortWriter.step] at hstep
    split at hstep
    · cases hstep
      exact h.enterState next
    · cases hstep
  | tick ms =>
    cases hstep
    exact h.of_same rfl rfl rfl rfl

theorem ordered_of_run {events : List WriterEvent}
    (hrun : (writerRuns config).run events = some s) : Ordered config s :=
  TransitionSystem.run_invariant_all ordered_init (fun _ _ _ h hstep => h.step hstep) hrun

/-! ### what a run writes -/

/-- The calls of `writer.write` on one connection. -/
def callsOn (s : PortWriter) (openId : OpenId) : List ChunkCall :=
  s.calls.filter fun call => call.openId = openId

variable (config) in
/-- The chunks of one write, all on this connection: one after the other from the payload's first
byte on. -/
structure IsBlock (s : PortWriter) (openId : OpenId) (w : PortWrite) : Prop where
  nonempty : s.callsOf w.id ≠ []
  sameOpen : ∀ call ∈ s.callsOf w.id, call.openId = openId
  chunks : (s.callsOf w.id).map ChunkCall.bytes <+: List.chunksOf
    config.maxWriteChunkBytes w.payload
  taken : ∀ call ∈ (s.callsOf w.id).dropLast, call.IsTaken

theorem Current.isBlock {w : PortWrite}
    (h : Current config w.payload openId bytesWritten chunk P (s.callsOf w.id)) :
    IsBlock config s openId w := by
  obtain ⟨before, last, hcalls, hwritten, -⟩ := h
  refine ⟨?_, ?_, ?_, ?_⟩
  · rw [hcalls]
    simp
  · rw [hcalls]
    exact hwritten.sameOpen
  · rw [hcalls]
    exact hwritten.chunks
  · rw [hcalls, List.dropLast_concat]
    exact hwritten.taken

theorem Answered.isBlock {w : PortWrite} (h : Answered config w.payload (s.callsOf w.id) answer) :
    s.callsOf w.id = [] ∨ ∃ openId, IsBlock config s openId w := by
  match answer, h with
  | some .done, ⟨hbytes, hall, openId, hopen⟩ =>
    by_cases hnil : s.callsOf w.id = []
    · exact Or.inl hnil
    · exact Or.inr ⟨openId, hnil, hopen, hbytes ▸ List.prefix_rfl, fun call hcall =>
        hall call (List.dropLast_subset _ hcall)⟩
  | some .threw, ⟨openId, _, _, hcur⟩ => exact Or.inr ⟨openId, hcur.isBlock⟩
  | some (.failed _), .inl ⟨_, _, hnil⟩ => exact Or.inl hnil
  | some (.failed _), .inr ⟨_, openId, _, _, _, hcur⟩ => exact Or.inr ⟨openId, hcur.isBlock⟩

theorem Fits.isBlock {w : PortWrite} {phase : JobPhase}
    (h : Fits config w.payload answer (s.callsOf w.id) phase) :
    s.callsOf w.id = [] ∨ ∃ openId, IsBlock config s openId w := by
  match phase, h with
  | .asking _, ⟨_, hnil⟩ | .awaitingAnswer _, ⟨_, hnil⟩ | .answered _, ⟨_, hnil⟩ =>
    exact Or.inl hnil
  | .writing openId _ _ _, ⟨_, hcur⟩ => exact Or.inr ⟨openId, hcur.isBlock⟩
  | .settled openId _ _ .taken, ⟨_, hcur⟩ => exact Or.inr ⟨openId, hcur.isBlock⟩
  | .settled openId _ _ .rejected, ⟨_, hcur⟩ => exact Or.inr ⟨openId, hcur.isBlock⟩
  | .settled openId _ _ .timedOut, ⟨_, hcur⟩ => exact Or.inr ⟨openId, hcur.isBlock⟩
  | .stalled openId _, ⟨_, _, hcur⟩ => exact Or.inr ⟨openId, hcur.isBlock⟩
  | .unstalled openId _ _, ⟨_, _, hcur⟩ => exact Or.inr ⟨openId, hcur.isBlock⟩
  | .ended, h => exact Answered.isBlock h

/-- What was written of a write is nothing, or a block on one connection. -/
theorem Ordered.isBlock (h : Ordered config s) {w : PortWrite} (hw : w ∈ s.writes) :
    s.callsOf w.id = [] ∨ ∃ openId, IsBlock config s openId w := by
  by_cases hwait : w.id ∈ s.waiting
  · exact Or.inl (h.unbegun w hw hwait).2
  · by_cases hrun : ∃ phase, s.running = some ⟨w.id, phase⟩
    · obtain ⟨phase, hphase⟩ := hrun
      exact (h.fits w hw phase hphase).isBlock
    · exact (h.answered w hw hwait fun phase hphase => hrun ⟨phase, hphase⟩).isBlock

theorem Ordered.calls_eq (h : Ordered config s) :
    s.calls = s.writes.flatMap fun w => s.callsOf w.id := by
  have hgroups := List.eq_flatMap_filter_of_sorted h.callsSorted fun call hcall =>
    (h.callsLt call hcall).1
  rw [← h.writeIds, List.flatMap_map] at hgroups
  exact hgroups

/-- Whether chunks of the write went to this connection. -/
def wentTo (s : PortWriter) (openId : OpenId) (w : PortWrite) : Bool :=
  (s.callsOf w.id).any fun call => call.openId = openId

theorem IsBlock.wentTo {w : PortWrite} (h : IsBlock config s openId w) (openId' : OpenId) :
    s.wentTo openId' w = true ↔ openId = openId' := by
  obtain ⟨call, hcall⟩ := List.exists_mem_of_ne_nil _ h.nonempty
  simp only [PortWriter.wentTo, List.any_eq_true, decide_eq_true_eq]
  constructor
  · rintro ⟨call', hcall', rfl⟩
    exact (h.sameOpen call' hcall').symm
  · rintro rfl
    exact ⟨call, hcall, h.sameOpen call hcall⟩

theorem not_wentTo_of_nil {w : PortWrite} (hnil : s.callsOf w.id = []) :
    ¬ s.wentTo openId w = true := by
  rw [wentTo, hnil]
  exact Bool.false_ne_true

/-- The calls on one connection are the blocks of the writes that went to it, in the order these
were queued. -/
theorem Ordered.callsOn_eq (h : Ordered config s) (openId : OpenId) :
    ∃ written : List PortWrite, written.Sublist s.writes ∧
      (s.callsOn openId = written.flatMap fun w => s.callsOf w.id) ∧
      ∀ w ∈ written, IsBlock config s openId w := by
  refine ⟨s.writes.filter (s.wentTo openId), List.filter_sublist, ?_, ?_⟩
  · unfold callsOn
    conv_lhs => rw [h.calls_eq, List.filter_flatMap]
    suffices hall : ∀ l : List PortWrite, (∀ w ∈ l, w ∈ s.writes) →
        l.flatMap (fun w => (s.callsOf w.id).filter fun call => call.openId = openId)
          = (l.filter (s.wentTo openId)).flatMap fun w => s.callsOf w.id from
      hall s.writes fun w hw => hw
    intro l
    induction l with
    | nil => exact fun _ => rfl
    | cons w l ih =>
      intro hl
      have htail := ih fun w' hw' => hl w' (List.mem_cons_of_mem _ hw')
      rw [List.flatMap_cons, htail]
      rcases h.isBlock (hl w List.mem_cons_self) with hnil | ⟨openId', hblock⟩
      · rw [List.filter_cons_of_neg (not_wentTo_of_nil hnil), hnil]
        rfl
      · by_cases hopen : openId' = openId
        · have hkept : (s.callsOf w.id).filter (fun call =>
              call.openId = openId) = s.callsOf w.id :=
            List.filter_eq_self.mpr fun call hcall =>
              by simpa [hblock.sameOpen call hcall] using hopen
          rw [List.filter_cons_of_pos ((hblock.wentTo openId).mpr hopen), List.flatMap_cons, hkept]
        · have hnone : (s.callsOf w.id).filter (fun call => call.openId = openId) = [] :=
            List.filter_eq_nil_iff.mpr fun call hcall =>
              by simpa [hblock.sameOpen call hcall] using hopen
          have hnot : ¬ s.wentTo openId w = true :=
            fun hwent => hopen ((hblock.wentTo openId).mp hwent)
          rw [List.filter_cons_of_neg hnot, hnone, List.nil_append]
  · intro w hw
    obtain ⟨hmem, hwent⟩ := List.mem_filter.mp hw
    rcases h.isBlock hmem with hnil | ⟨openId', hblock⟩
    · exact absurd hwent (not_wentTo_of_nil hnil)
    · obtain rfl := (hblock.wentTo openId).mp hwent
      exact hblock

theorem Ordered.bytes_length_le (h : Ordered config s) {call : ChunkCall} (hcall : call ∈ s.calls) :
    call.bytes.length ≤ config.maxWriteChunkBytes := by
  rw [h.calls_eq] at hcall
  obtain ⟨w, hw, hcall⟩ := List.mem_flatMap.mp hcall
  rcases h.isBlock hw with hnil | ⟨openId, hblock⟩
  · rw [hnil] at hcall
    cases hcall
  · exact List.length_le_of_mem_chunksOf (hblock.chunks.subset (List.mem_map_of_mem hcall))

theorem Ordered.calls_le (h : Ordered config s) {w : PortWrite} (hw : w ∈ s.writes) :
    (s.callsOf w.id).length ≤ List.chunkCount config.maxWriteChunkBytes w.payload.length := by
  rcases h.isBlock hw with hnil | ⟨openId, hblock⟩
  · rw [hnil]
    exact Nat.zero_le _
  · have hle := hblock.chunks.length_le_chunkCount
    rwa [List.length_map] at hle

/-! ### the loop ends -/

/-- The device takes a chunk, or the loop goes on after one. -/
def isTaking : WriterEvent → Bool
  | .settle _ isTaken => isTaken
  | .goOn isThrown => !isThrown
  | _ => false

/-- The device takes the chunk: the loop writes the next one, or the job has ended. -/
theorem Ordered.takeChunk (h : Ordered config s) {w : PortWrite} {due : Nat} (hw : w ∈ s.writes)
    (hrunning : s.running = some ⟨w.id, .writing openId bytesWritten chunk due⟩) :
    ∃ s', (writerRuns config).runFrom s [.settle chunk true, .goOn false] = some s' ∧
      Ordered config s' ∧
      (s'.running = some ⟨w.id, .ended⟩ ∨
        w ∈ s'.writes ∧ (s'.callsOf w.id).length = (s.callsOf w.id).length + 1 ∧
        ∃ bytesWritten chunk due, s'.running = some ⟨w.id,
          .writing openId bytesWritten chunk due⟩) := by
  obtain ⟨-, before, last, hcalls, -, rfl, hout, -⟩ := h.fits w hw _ hrunning
  have hlast : last ∈ s.calls :=
    (List.mem_filter.mp (show last ∈ s.callsOf w.id by rw [hcalls]; simp)).1
  have hfound : s.call? last.id = some last := h.distinctCalls.lookup hlast
  have hsettle : s.step config (.settle last.id true) = some (s.settle last.id true) := by
    obtain ⟨id, openId, write, bytes, outcome, isLate⟩ := last
    obtain rfl : outcome = none := hout
    simp only [PortWriter.step, hfound]
  have hsettled := h.settle true hlast hout
  have hjob : (s.settle last.id true).running = some ⟨w.id,
      .settled openId bytesWritten last.id .taken⟩ := by
    change s.running.map _ = _
    rw [hrunning]
    simp [hear]
  have hwrite : (s.settle last.id true).write? w.id = some w := h.distinct.lookup hw
  have hmemCall : { last with outcome := some .taken } ∈ (s.settle last.id true).calls :=
    KeyedList.mem_adjust.mpr ⟨last, hlast, (if_pos rfl).symm⟩
  have hcall : (s.settle last.id true).call? last.id = some { last with outcome := some .taken } :=
    hsettled.distinctCalls.lookup hmemCall
  have hgo : (s.settle last.id true).step config (.goOn false)
      = some ((s.settle last.id true).chunkTaken config w openId bytesWritten
        { last with outcome := some .taken } false) := by
    simp only [PortWriter.step, PortWriter.goOn, hjob, hwrite, hcall]
  have hlength : ((s.settle last.id true).callsOf w.id).length = (s.callsOf w.id).length := by
    have hadjusted : (s.settle last.id true).callsOf w.id
        = KeyedList.adjust ChunkCall.id last.id (fun call =>
          { call with outcome := some .taken }) (s.callsOf w.id) :=
      KeyedList.filter_adjust fun call => rfl
    rw [hadjusted, KeyedList.length_adjust]
  refine ⟨_, Option.bind_eq_some_iff.mpr ⟨_, hsettle, Option.bind_eq_some_iff.mpr ⟨_, hgo, rfl⟩⟩,
    hsettled.step hgo, ?_⟩
  unfold PortWriter.chunkTaken
  dsimp only
  split
  · refine Or.inr ⟨hw, ?_, _, _, _, rfl⟩
    rw [← hlength]
    change (((s.settle last.id true).calls ++ [_]).filter fun call : ChunkCall =>
      call.write = w.id).length = _
    rw [List.filter_append, List.length_append, List.filter_cons_of_pos (by simp), List.filter_nil,
      List.length_singleton]
    rfl
  · exact Or.inl rfl

/-- **The loop ends**: a job that writes chunks has ended once the device has taken the rest of
them. -/
theorem Ordered.loop_ends (h : Ordered config s) {w : PortWrite} {due : Nat} (hw : w ∈ s.writes)
    (hrunning : s.running = some ⟨w.id, .writing openId bytesWritten chunk due⟩) :
    ∃ events s', (∀ event ∈ events, isTaking event = true) ∧
      (writerRuns config).runFrom s events = some s' ∧ s'.running = some ⟨w.id, .ended⟩ := by
  obtain ⟨left, hleft⟩ :
      ∃ left, List.chunkCount config.maxWriteChunkBytes w.payload.length = (s.callsOf w.id).length +
      left :=
    Nat.exists_eq_add_of_le (h.calls_le hw)
  induction left generalizing s bytesWritten chunk due with
  | zero =>
    obtain ⟨s', hrun, hordered, hended | ⟨hw', hlength, -⟩⟩ := h.takeChunk hw hrunning
    · exact ⟨_, s', by simp [isTaking], hrun, hended⟩
    · have hle := hordered.calls_le hw'
      omega
  | succ left ih =>
    obtain ⟨s', hrun, hordered, hended | ⟨hw', hlength, bytesWritten', chunk', due', hwriting⟩⟩ :=
      h.takeChunk hw hrunning
    · exact ⟨_, s', by simp [isTaking], hrun, hended⟩
    · obtain ⟨events, s'', htaking, hrun', hended⟩ := ih hordered hw' hwriting (by omega)
      refine ⟨[.settle chunk true, .goOn false] ++ events, s'', fun event hevent => ?_, ?_, hended⟩
      · rcases List.mem_append.mp hevent with hevent | hevent
        · rcases List.mem_pair.mp hevent with rfl | rfl
          · rfl
          · rfl
        · exact htaking event hevent
      · rw [TransitionSystem.runFrom_append, hrun]
        exact hrun'

/-! ### what the writes are answered with -/

/-- What is said of a failed write: that nothing of it was written, or how many bytes the chunks
before the last one had. -/
structure ReportedExactly (s : PortWriter) (w : PortWrite) (error : SerialBrokerError) : Prop where
  unbegun : saysUnbegun error → s.callsOf w.id = []
  begun : ¬ saysUnbegun error → ∃ before last, s.callsOf w.id = before ++ [last] ∧
    (∀ call ∈ before, call.IsTaken) ∧
    HasFailed last ∧ error.bytesWritten = some (before.map ChunkCall.bytes).flatten.length

theorem Answered.reported {w : PortWrite} {error : SerialBrokerError}
    (h : Answered config w.payload (s.callsOf w.id) (some (.failed error))) :
    ReportedExactly s w error := by
  rcases h with ⟨hclaims, -, hnil⟩ | ⟨hclaims, openId, bytesWritten, chunk, hbytes, before, last,
    hcalls, hwritten, -, hfailed⟩
  · exact ⟨fun _ => hnil, fun hnot => absurd hclaims hnot⟩
  · refine ⟨fun hunbegun => absurd hunbegun hclaims, fun _ =>
      ⟨before, last, hcalls, hwritten.taken, hfailed, ?_⟩⟩
    rw [hbytes, hwritten.bytes]

/-- An answer is right about its write as soon as it is given, also while the job still waits for
its last chunk. -/
theorem Ordered.reported (h : Ordered config s) {w : PortWrite} {error : SerialBrokerError}
    (hw : w ∈ s.writes)
    (hanswer : w.answer = some (.failed error)) : ReportedExactly s w error := by
  by_cases hwait : w.id ∈ s.waiting
  · rw [(h.unbegun w hw hwait).1] at hanswer
    cases hanswer
  by_cases hrun : ∃ phase, s.running = some ⟨w.id, phase⟩
  · obtain ⟨phase, hphase⟩ := hrun
    have hfits := h.fits w hw phase hphase
    rw [hanswer] at hfits
    have hstalled : ∀ openId chunk,
        (∃ bytesWritten, some (.failed error) = some (timedOut bytesWritten) ∧
        Current config w.payload openId bytesWritten chunk (fun call =>
          call.isLate = true) (s.callsOf w.id)) →
        ReportedExactly s w error := by
      rintro openId chunk ⟨bytesWritten, heq, hcur⟩
      obtain rfl : error = ⟨.WRITE_TIMEOUT, none, some bytesWritten⟩ := by
        simpa [timedOut] using heq
      have hanswered : Answered config w.payload (s.callsOf w.id)
          (some (.failed ⟨.WRITE_TIMEOUT, none, some bytesWritten⟩)) :=
        Or.inr ⟨not_saysUnbegun_timedOut, openId, bytesWritten, chunk, rfl,
          hcur.imp fun call hlate => Or.inl hlate⟩
      exact hanswered.reported
    cases phase with
    | asking | awaitingAnswer | answered | writing => exact absurd hfits.1 (by simp)
    | settled openId bytesWritten chunk result =>
      cases result with
      | taken | rejected | timedOut => exact absurd hfits.1 (by simp)
    | stalled openId chunk => exact hstalled openId chunk hfits
    | unstalled openId chunk result => exact hstalled openId chunk hfits
    | ended => exact Answered.reported hfits
  · have hanswered := h.answered w hw hwait fun phase hphase => hrun ⟨phase, hphase⟩
    rw [hanswer] at hanswered
    exact hanswered.reported

/-- **What reaches the device is whole chunks in order.** In every run, the calls of `writer.write`
on a connection are one block for each write that went to it: consecutive chunks of its payload from
the first byte on, none longer than `maxWriteChunkBytes`. The loop ends for every payload. A write
has no chunk after one that failed or outlived its deadline, its failure says how many bytes were
taken before, and a write that is said not to have begun had none written. -/
theorem whole_chunks {events : List WriterEvent} {s : PortWriter}
    (hrun : (writerRuns config).run events = some s) :
    (∀ openId, ∃ written : List PortWrite, written.Sublist s.writes ∧
      (s.callsOn openId = written.flatMap fun w => s.callsOf w.id) ∧
        ∀ w ∈ written, IsBlock config s openId w) ∧
    (∀ call ∈ s.calls, call.bytes.length ≤ config.maxWriteChunkBytes) ∧
    (∀ w ∈ s.writes, (s.callsOf w.id).length ≤
      List.chunkCount config.maxWriteChunkBytes w.payload.length ∧
      ∀ openId bytesWritten chunk due, s.running = some ⟨w.id,
        .writing openId bytesWritten chunk due⟩ →
        ∃ events s', (∀ event ∈ events, isTaking event = true) ∧
          (writerRuns config).runFrom s events = some s' ∧ s'.running = some ⟨w.id, .ended⟩) ∧
    (∀ w ∈ s.writes, ∀ call ∈ (s.callsOf w.id).dropLast, call.IsTaken) ∧
    (∀ w ∈ s.writes, ∀ error, w.answer = some (.failed error) → ReportedExactly s w error) := by
  have h := ordered_of_run hrun
  refine ⟨h.callsOn_eq, fun call hcall => h.bytes_length_le hcall, fun w hw => ⟨h.calls_le hw, ?_⟩,
    fun w hw call hcall => ?_,
    fun w hw error hanswer => h.reported hw hanswer⟩
  · exact fun openId bytesWritten chunk due hrunning => h.loop_ends hw hrunning
  · rcases h.isBlock hw with hnil | ⟨openId, hblock⟩
    · rw [hnil] at hcall
      cases hcall
    · exact hblock.taken call hcall

/-- A write that succeeded was written to its last byte. -/
theorem done_wrote_all {events : List WriterEvent} {s : PortWriter}
    (hrun : (writerRuns config).run events = some s)
    {w : PortWrite} (hw : w ∈ s.writes) (hanswer : w.answer = some .done) :
    ((s.callsOf w.id).map ChunkCall.bytes).flatten = w.payload ∧
      ∀ call ∈ s.callsOf w.id, call.IsTaken := by
  have h := ordered_of_run hrun
  suffices hdone : Answered config w.payload (s.callsOf w.id) (some .done) by
    refine ⟨?_, hdone.2.1⟩
    rw [hdone.1]
    exact List.flatten_chunksOf config.chunkBytes_pos
  have hwait : w.id ∉ s.waiting := by
    intro hwait
    rw [(h.unbegun w hw hwait).1] at hanswer
    cases hanswer
  by_cases hrunning : ∃ phase, s.running = some ⟨w.id, phase⟩
  · obtain ⟨phase, hphase⟩ := hrunning
    have hfits := h.fits w hw phase hphase
    rw [hanswer] at hfits
    cases phase with
    | asking | awaitingAnswer | answered | writing => exact absurd hfits.1 (by simp)
    | settled openId bytesWritten chunk result =>
      cases result with
      | taken | rejected | timedOut => exact absurd hfits.1 (by simp)
    | stalled openId chunk | unstalled openId chunk result =>
      obtain ⟨bytesWritten, heq, -⟩ := hfits
      simp [timedOut] at heq
    | ended => exact hfits
  · rw [← hanswer]
    exact h.answered w hw hwait fun phase hphase => hrunning ⟨phase, hphase⟩

/-- Chunks of two bytes, and a hundred milliseconds for each. -/
def twoBytes : WriterConfig := ⟨100, 2, by decide⟩

/-- Of three bytes the device takes two, and leaves the third chunk until its deadline has
passed. -/
def takenInPart : List WriterEvent :=
  [.enterState (.open 7 0), .write [1, 2, 3], .startNext, .mayBegin (some true) false,
    .settle 0 true, .goOn false, .tick 100,
    .deadline, .goOn false]

theorem whole_chunks_takenInPart :
    ∃ s w, (writerRuns twoBytes).run takenInPart = some s ∧ w ∈ s.writes ∧
      w.answer = some (timedOut 2) ∧
      ReportedExactly s w ⟨.WRITE_TIMEOUT, none, some 2⟩ ∧ (s.callsOf w.id).length = 2 ∧
      ∃ written : List PortWrite, s.callsOn 0 = written.flatMap fun w => s.callsOf w.id := by
  have hsome := (Option.any_eq_true _ _).mp
      (show ((writerRuns twoBytes).run takenInPart).any (fun s =>
    s.writes = [⟨0, [1, 2, 3], 0, none, some (timedOut 2)⟩] ∧
      (s.callsOf 0).length = 2) = true by decide)
  obtain ⟨s, hrun, hs⟩ := hsome
  obtain ⟨hwrites, hcalls⟩ := of_decide_eq_true hs
  obtain ⟨hblocks, -, -, -, hreported⟩ := whole_chunks hrun
  have hw : ⟨0, [1, 2, 3], 0, none, some (timedOut 2)⟩ ∈ s.writes :=
    hwrites ▸ List.mem_singleton_self _
  obtain ⟨written, -, hon, -⟩ := hblocks 0
  exact ⟨s, _, hrun, hw, rfl, hreported _ hw _ rfl, hcalls, written, hon⟩

end PortWriter

end SerialBroker
