import Mathlib.Data.List.Basic

/-!
# The byte queue

`ByteQueue` of the emulator: bytes that arrived in chunks, of which `peek` joins those it is asked
for into one. A chunk is never empty and `length` counts the bytes, which the structure carries. To
its callers a queue is the list of its bytes: `push` appends, `peek` takes and `discard` drops, and
only what is not there is a `RangeError`.
-/

namespace SerialBroker.Emulator

structure ByteQueue where
  chunks : List (List UInt8)
  length : ℕ
  ne_nil : ∀ chunk ∈ chunks, chunk ≠ []
  length_eq : length = chunks.flatten.length

/-- The loop of `peek`: the first `count` bytes joined, and the chunks that are left. -/
def joinBytes : ℕ → List (List UInt8) → List UInt8 × List (List UInt8)
  | 0, chunks => ([], chunks)
  | _ + 1, [] => ([], [])
  | count + 1, chunk :: chunks =>
    if count + 1 < chunk.length then (chunk.take (count + 1), chunk.drop (count + 1) :: chunks)
    else (chunk ++ (joinBytes (count + 1 - chunk.length) chunks).1,
      (joinBytes (count + 1 - chunk.length) chunks).2)

/-- The loop of `discard`: the chunks without their first bytes. -/
def dropBytes : ℕ → List (List UInt8) → List (List UInt8)
  | 0, chunks => chunks
  | _ + 1, [] => []
  | count + 1, chunk :: chunks =>
    if count + 1 < chunk.length then chunk.drop (count + 1) :: chunks
      else dropBytes (count + 1 - chunk.length) chunks

/-! ### what the loops do to the bytes -/

theorem joinBytes_fst (count : ℕ) (chunks : List (List UInt8)) :
    (joinBytes count chunks).1 = chunks.flatten.take count := by
  induction chunks generalizing count with
  | nil => cases count <;> rfl
  | cons chunk chunks ih =>
    cases count with
    | zero => rfl
    | succ count =>
      rw [joinBytes, List.flatten_cons]
      split
      · next hlt => rw [List.take_append_of_le_length (Nat.le_of_lt hlt)]
      · next hge => rw [ih, List.take_append, List.take_of_length_le (Nat.le_of_not_lt hge)]

theorem joinBytes_flatten (count : ℕ) (chunks : List (List UInt8)) :
    (joinBytes count chunks).1 ++ (joinBytes count chunks).2.flatten = chunks.flatten := by
  induction chunks generalizing count with
  | nil => cases count <;> rfl
  | cons chunk chunks ih =>
    cases count with
    | zero => rfl
    | succ count =>
      rw [joinBytes]
      split
      · rw [List.flatten_cons, List.flatten_cons, ← List.append_assoc, List.take_append_drop]
      · rw [List.append_assoc, ih, List.flatten_cons]

theorem ne_nil_of_mem_joinBytes (count : ℕ) {chunks : List (List UInt8)}
    (h : ∀ chunk ∈ chunks, chunk ≠ []) :
    ∀ chunk ∈ (joinBytes count chunks).2, chunk ≠ [] := by
  induction chunks generalizing count with
  | nil => cases count <;> exact fun _ hmem => absurd hmem List.not_mem_nil
  | cons chunk chunks ih =>
    cases count with
    | zero => exact h
    | succ count =>
      obtain ⟨_, hrest⟩ := List.forall_mem_cons.mp h
      rw [joinBytes]
      split
      · next hlt =>
          exact List.forall_mem_cons.mpr
            ⟨List.ne_nil_of_length_pos (by rw [List.length_drop]; omega), hrest⟩
      · exact ih _ hrest

theorem dropBytes_flatten (count : ℕ) (chunks : List (List UInt8)) :
    (dropBytes count chunks).flatten = chunks.flatten.drop count := by
  induction chunks generalizing count with
  | nil => cases count <;> rfl
  | cons chunk chunks ih =>
    cases count with
    | zero => rfl
    | succ count =>
      rw [dropBytes, List.flatten_cons]
      split
      · next hlt => rw [List.flatten_cons, List.drop_append_of_le_length (Nat.le_of_lt hlt)]
      · next hge =>
          rw [ih, List.drop_append, List.drop_of_length_le (Nat.le_of_not_lt hge), List.nil_append]

theorem ne_nil_of_mem_dropBytes (count : ℕ) {chunks : List (List UInt8)}
    (h : ∀ chunk ∈ chunks, chunk ≠ []) :
    ∀ chunk ∈ dropBytes count chunks, chunk ≠ [] := by
  induction chunks generalizing count with
  | nil => cases count <;> exact fun _ hmem => absurd hmem List.not_mem_nil
  | cons chunk chunks ih =>
    cases count with
    | zero => exact h
    | succ count =>
      obtain ⟨_, hrest⟩ := List.forall_mem_cons.mp h
      rw [dropBytes]
      split
      · next hlt =>
          exact List.forall_mem_cons.mpr
            ⟨List.ne_nil_of_length_pos (by rw [List.length_drop]; omega), hrest⟩
      · exact ih _ hrest

namespace ByteQueue

def empty : ByteQueue := ⟨[], 0, List.forall_mem_nil _, rfl⟩

/-- The queue as its callers see it. -/
def bytes (q : ByteQueue) : List UInt8 := q.chunks.flatten

def push (q : ByteQueue) (chunk : List UInt8) : ByteQueue :=
  if h : chunk = [] then q
  else
    { chunks := q.chunks ++ [chunk]
      length := q.length + chunk.length
      ne_nil := List.forall_mem_append.mpr ⟨q.ne_nil, List.forall_mem_singleton.mpr h⟩
      length_eq := by
        rw [List.flatten_append, List.length_append, q.length_eq, List.flatten_singleton] }

/-- The queue with its first bytes joined into one chunk, as the loop of `peek` leaves it. -/
def join (q : ByteQueue) (count : ℕ) (hpos : 0 < count) (hle : count ≤ q.length) : ByteQueue where
  chunks := (joinBytes count q.chunks).1 :: (joinBytes count q.chunks).2
  length := q.length
  ne_nil := by
    refine List.forall_mem_cons.mpr ⟨List.ne_nil_of_length_pos ?_,
      ne_nil_of_mem_joinBytes count q.ne_nil⟩
    rw [joinBytes_fst, List.length_take, ← q.length_eq, Nat.min_eq_left hle]
    exact hpos
  length_eq := by rw [List.flatten_cons, joinBytes_flatten, ← q.length_eq]

/-- The queue may be cut differently afterwards. -/
def peek (q : ByteQueue) (count : ℕ) : Except String (ByteQueue × List UInt8) :=
  if hle : count ≤ q.length then
    if hpos : 0 < count then
      match q.chunks.head? with
      | some first =>
        if count ≤ first.length then .ok (q, first.take count)
          else .ok (q.join count hpos hle, (joinBytes count q.chunks).1)
      | none => .ok (q.join count hpos hle, (joinBytes count q.chunks).1)
    else .ok (q, [])
  else .error ("Asked for " ++ toString count ++ " bytes, but only " ++ toString q.length ++
    " are queued.")

def discard (q : ByteQueue) (count : ℕ) : Except String ByteQueue :=
  if count ≤ q.length then
    .ok
      { chunks := dropBytes count q.chunks
        length := q.length - count
        ne_nil := ne_nil_of_mem_dropBytes count q.ne_nil
        length_eq := by rw [dropBytes_flatten, List.length_drop, ← q.length_eq] }
  else .error ("Asked to discard " ++ toString count ++ " bytes, but only " ++ toString q.length ++
    " are queued.")

/-! ### the queue is the list of its bytes -/

variable {q : ByteQueue} {count : ℕ}

theorem length_bytes (q : ByteQueue) : q.bytes.length = q.length := q.length_eq.symm

theorem bytes_push (q : ByteQueue) (chunk : List UInt8) :
    (q.push chunk).bytes = q.bytes ++ chunk := by
  unfold push
  split
  · next h => rw [h, List.append_nil]
  · exact List.flatten_append.trans (by rw [List.flatten_singleton]; rfl)

theorem bytes_join (hpos : 0 < count) (hle : count ≤ q.length) :
    (q.join count hpos hle).bytes = q.bytes := by
  exact List.flatten_cons.trans (joinBytes_flatten count q.chunks)

theorem peek_of_le (h : count ≤ q.length) :
    ∃ q', q.peek count = .ok (q', q.bytes.take count) ∧ q'.bytes = q.bytes := by
  unfold peek
  rw [dif_pos h]
  by_cases hpos : 0 < count
  · rw [dif_pos hpos]
    cases hchunks : q.chunks with
    | nil =>
      refine ⟨_, ?_, bytes_join hpos h⟩
      rw [List.head?_nil, ← hchunks, joinBytes_fst]
      rfl
    | cons first rest =>
      rw [List.head?_cons]
      by_cases hfirst : count ≤ first.length
      · refine ⟨q, ?_, rfl⟩
        simp only [if_pos hfirst, bytes, hchunks, List.flatten_cons,
          List.take_append_of_le_length hfirst]
      · refine ⟨_, ?_, bytes_join hpos h⟩
        simp only [if_neg hfirst]
        rw [← hchunks, joinBytes_fst]
        rfl
  · rw [dif_neg hpos]
    obtain rfl : count = 0 := Nat.eq_zero_of_not_pos hpos
    exact ⟨q, rfl, rfl⟩

theorem discard_of_le (h : count ≤ q.length) :
    ∃ q', q.discard count = .ok q' ∧ q'.bytes = q.bytes.drop count :=
  ⟨_, if_pos h, dropBytes_flatten count q.chunks⟩

end ByteQueue

end SerialBroker.Emulator
