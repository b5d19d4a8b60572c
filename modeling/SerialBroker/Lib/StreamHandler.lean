import Mathlib.Data.List.Basic
import Mathlib.Tactic.TypeStar

/-!
# Handlers of a stream that arrives in chunks

A handler takes messages off the front of what has arrived: `next` says how many items the first
message has and what its handling makes of the state, or nothing while the message is incomplete.
What matters is that it is stable: what it makes of a message does not depend on what follows it.
`drain` handles all that has arrived, until the state is closed, and `receive` does so with a chunk
more. However the stream is cut, `foldl_receive` gets to what `drain` makes of it in one piece.
-/

/-- A handler over states `σ`. A message that is handled without being taken off closes the
state. -/
structure StreamHandler (σ α : Type*) where
  next : σ → List α → Option (ℕ × σ)
  isClosed : σ → Bool
  length_le : ∀ {s l n s'}, next s l = some (n, s') → n ≤ l.length
  progress : ∀ {s l n s'}, next s l = some (n, s') → isClosed s' ∨ 0 < n
  stable : ∀ {s l r} (more : List α), next s l = some r → next s (l ++ more) = some r

namespace StreamHandler

variable {σ α : Type*} (h : StreamHandler σ α)

/-- The messages that have arrived are handled, until one closes the state. -/
def drain (s : σ) (l : List α) : σ × List α :=
  if h.isClosed s then (s, l)
  else
    match hnext : h.next s l with
    | none => (s, l)
    | some (n, s') => drain s' (l.drop n)
termination_by if h.isClosed s then 0 else l.length + 1
decreasing_by
  next hopen =>
    rw [if_neg hopen]
    obtain hclosed | hpos := h.progress hnext
    · rw [if_pos hclosed]
      exact Nat.succ_pos _
    · have hle := h.length_le hnext
      rw [List.length_drop]
      split <;> omega

variable {h} {s s' : σ} {l : List α} {n : ℕ}

theorem drain_of_closed (hclosed : h.isClosed s) : h.drain s l = (s, l) := by
  rw [drain, if_pos hclosed]

theorem drain_of_none (hnext : h.next s l = none) : h.drain s l = (s, l) := by
  rw [drain]
  split
  · rfl
  · split
    · rfl
    · next heq =>
      rw [hnext] at heq
      cases heq

theorem drain_of_some (hopen : ¬ h.isClosed s) (hnext : h.next s l = some (n, s')) :
    h.drain s l = h.drain s' (l.drop n) := by
  rw [drain, if_neg hopen]
  split
  · next heq =>
    rw [hnext] at heq
    cases heq
  · next heq =>
    rw [hnext] at heq
    cases heq
    rfl

/-- The induction over the messages that `drain` handles. -/
theorem drain_induction {motive : σ → List α → Prop} (hclosed : ∀ s l, h.isClosed s → motive s l)
    (hnone : ∀ s l, ¬ h.isClosed s → h.next s l = none → motive s l)
    (hsome : ∀ s l n s', ¬ h.isClosed s → h.next s l = some (n, s') → motive s' (l.drop n) →
      motive s l) (s : σ) (l : List α) :
    motive s l := by
  induction s, l using drain.induct h with
  | case1 s l hc => exact hclosed s l hc
  | case2 s l hc hn => exact hnone s l hc hn
  | case3 s l hc n s' hn ih => exact hsome s l n s' hc hn ih

/-- **Where the stream is cut does not matter.** -/
theorem drain_append (s : σ) (l more : List α) :
    h.drain s (l ++ more) = h.drain (h.drain s l).1 ((h.drain s l).2 ++ more) := by
  induction s, l using h.drain_induction with
  | hclosed s l hclosed => rw [drain_of_closed (l := l) hclosed]
  | hnone s l hopen hnext => rw [drain_of_none hnext]
  | hsome s l n s' hopen hnext ih =>
    rw [drain_of_some hopen hnext, drain_of_some hopen (h.stable more hnext), ← ih,
      List.drop_append_of_le_length (h.length_le hnext)]

/-- Nothing is left that could be handled. -/
theorem next_drain (s : σ) (l : List α) :
    h.isClosed (h.drain s l).1 ∨ h.next (h.drain s l).1 (h.drain s l).2 = none := by
  induction s, l using h.drain_induction with
  | hclosed s l hclosed =>
    rw [drain_of_closed hclosed]
    exact Or.inl hclosed
  | hnone s l hopen hnext =>
    rw [drain_of_none hnext]
    exact Or.inr hnext
  | hsome s l n s' hopen hnext ih =>
    rw [drain_of_some hopen hnext]
    exact ih

variable (h) in
/-- A chunk arrives. -/
def receive (p : σ × List α) (chunk : List α) : σ × List α := h.drain p.1 (p.2 ++ chunk)

/-- **Chunks that arrive one by one are handled as their concatenation is.** -/
theorem foldl_receive (chunks : List (List α)) :
    chunks.foldl h.receive (h.drain s l) = h.drain s (l ++ chunks.flatten) := by
  induction chunks generalizing l with
  | nil => rw [List.foldl_nil, List.flatten_nil, List.append_nil]
  | cons chunk chunks ih =>
    rw [List.foldl_cons, receive, ← drain_append, ih, List.flatten_cons, List.append_assoc]

end StreamHandler
