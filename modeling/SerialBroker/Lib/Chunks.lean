import Mathlib.Data.List.Basic
import Mathlib.Data.List.Infix
import Mathlib.Tactic.Ring

/-!
# A list taken apart

`chunksOf size l` is what a loop takes off `l` that takes up to `size` elements in each round and
tests at the end of a round whether any are left: an empty list is one empty chunk. A loop that
stops early has taken a prefix of these chunks, and `IsPrefix.concat_chunksOf` says what it takes
next. A list sorted by a key is the concatenation of its groups: `eq_flatMap_filter_of_sorted`.
-/

namespace List

/-! ### in chunks -/

variable {α : Type*} {size : Nat} {l : List α} {p : List (List α)}

/-- The rounds of the loop for a list of this length. -/
def chunkCount (size length : Nat) : Nat := max 1 ((length + size - 1) / size)

/-- The chunks, in order. -/
def chunksOf (size : Nat) (l : List α) : List (List α) :=
  (List.range (chunkCount size l.length)).map fun i => (l.drop (i * size)).take size

@[simp] theorem length_chunksOf : (chunksOf size l).length = chunkCount size l.length := by
  rw [chunksOf, List.length_map, List.length_range]

theorem length_le_of_mem_chunksOf {chunk : List α} (h : chunk ∈ chunksOf size l) :
    chunk.length ≤ size := by
  obtain ⟨i, -, rfl⟩ := List.mem_map.mp h
  exact List.length_take_le _ _

/-- A round that is not the first begins before the end of the list, and every such round takes
place. -/
theorem lt_chunkCount_iff {k n : Nat} (hsize : 0 < size) (hk : 0 < k) :
    k < chunkCount size n ↔ k * size < n := by
  have hdiv : k + 1 ≤ (n + size - 1) / size ↔ (k + 1) * size ≤ n + size - 1 :=
    Nat.le_div_iff_mul_le hsize
  have hmul : (k + 1) * size = k * size + size := Nat.succ_mul k size
  unfold chunkCount
  omega

theorem take_chunksOf_succ {k : Nat} (hk : k < chunkCount size l.length) :
    (chunksOf size l).take (k + 1) = (chunksOf size l).take k ++
      [(l.drop (k * size)).take size] := by
  have hlen : k < (chunksOf size l).length := by rwa [length_chunksOf]
  rw [List.take_succ_eq_append_getElem hlen]
  simp only [chunksOf, List.getElem_map, List.getElem_range]

/-- What the first rounds have taken. -/
theorem flatten_take_chunksOf {k : Nat} (hk : k ≤ chunkCount size l.length) :
    ((chunksOf size l).take k).flatten = l.take (k * size) := by
  induction k with
  | zero => simp
  | succ k ih =>
    rw [take_chunksOf_succ hk, List.flatten_append, ih (Nat.le_of_succ_le hk),
      List.flatten_singleton, Nat.succ_mul,
      List.take_add]

theorem length_le_chunkCount_mul (hsize : 0 < size) (n : Nat) : n ≤ chunkCount size n * size := by
  by_contra hlt
  have hpos : 0 < chunkCount size n := Nat.lt_of_lt_of_le Nat.one_pos (Nat.le_max_left _ _)
  exact absurd ((lt_chunkCount_iff hsize hpos).mpr (Nat.lt_of_not_le hlt)) (Nat.lt_irrefl _)

/-- **The chunks are the list.** -/
theorem flatten_chunksOf (hsize : 0 < size) : (chunksOf size l).flatten = l := by
  have hall : (chunksOf size l).take (chunkCount size l.length) = chunksOf size l :=
    List.take_of_length_le (Nat.le_of_eq length_chunksOf)
  rw [← hall, flatten_take_chunksOf (Nat.le_refl _),
    List.take_of_length_le (length_le_chunkCount_mul hsize _)]

theorem IsPrefix.length_le_chunkCount (hp : p <+: chunksOf size l) :
    p.length ≤ chunkCount size l.length := by
  rw [← length_chunksOf]
  exact hp.length_le

theorem IsPrefix.flatten_of_chunksOf (hp : p <+: chunksOf size l) :
    p.flatten = l.take (p.length * size) := by
  rw [List.prefix_iff_eq_take.mp hp, flatten_take_chunksOf]
  · rw [List.length_take, Nat.min_eq_left hp.length_le]
  · exact hp.length_le_chunkCount

theorem singleton_prefix_chunksOf : [l.take size] <+: chunksOf size l := by
  have hcount : 0 < chunkCount size l.length := Nat.lt_of_lt_of_le Nat.one_pos (Nat.le_max_left _ _)
  rw [List.prefix_iff_eq_take, List.length_singleton, take_chunksOf_succ hcount]
  simp

/-- While elements are left, the loop takes the next of them. -/
theorem IsPrefix.concat_chunksOf (hsize : 0 < size) (hp : p <+: chunksOf size l) (hne : p ≠ [])
    (hmore : p.flatten.length < l.length) :
    p.flatten.length = p.length * size ∧ p ++
      [(l.drop p.flatten.length).take size] <+: chunksOf size l := by
  have hflat : p.flatten.length = min (p.length * size) l.length := by
    rw [hp.flatten_of_chunksOf, List.length_take]
  have hmul : p.length * size < l.length := by omega
  have heq : p.flatten.length = p.length * size := by omega
  have hk := (lt_chunkCount_iff hsize (List.length_pos_iff.mpr hne)).mpr hmul
  refine ⟨heq, ?_⟩
  rw [List.prefix_iff_eq_take, List.length_append, List.length_singleton,
    take_chunksOf_succ hk, heq,
    ← List.prefix_iff_eq_take.mp hp]

/-- Once none are left it has taken every chunk. -/
theorem IsPrefix.eq_chunksOf (hsize : 0 < size) (hp : p <+: chunksOf size l) (hne : p ≠ [])
    (hall : l.length ≤ p.flatten.length) : p = chunksOf size l := by
  refine hp.eq_of_length ?_
  by_contra hlen
  have hlt : p.length < chunkCount size l.length := by
    have hle := hp.length_le_chunkCount
    rw [length_chunksOf] at hlen
    omega
  have hmul := (lt_chunkCount_iff hsize (List.length_pos_iff.mpr hne)).mp hlt
  rw [hp.flatten_of_chunksOf, List.length_take] at hall
  omega

/-! ### by a key -/

theorem filter_lt_append_filter_eq {key : α → Nat} {n : Nat}
    (hsorted : l.Pairwise fun a b => key a ≤ key b)
    (hlt : ∀ a ∈ l, key a < n + 1) :
    l.filter (fun a => key a < n) ++ l.filter (fun a => key a = n) = l := by
  induction l with
  | nil => rfl
  | cons a l ih =>
    obtain ⟨hle, hsorted⟩ := List.pairwise_cons.mp hsorted
    have hl := ih hsorted fun b hb => hlt b (List.mem_cons_of_mem _ hb)
    by_cases ha : key a < n
    · rw [List.filter_cons_of_pos (by simpa using ha),
        List.filter_cons_of_neg (by simpa using Nat.ne_of_lt ha),
        List.cons_append, hl]
    · -- the key of `a` is the last one, and with it every key after it
      have heq : key a = n := by
        have hle := hlt a List.mem_cons_self
        omega
      have hnone : l.filter (fun b => key b < n) = [] := by
        refine List.filter_eq_nil_iff.mpr fun b hb => ?_
        have hab := hle b hb
        simp only [decide_eq_true_eq]
        omega
      rw [hnone, List.nil_append] at hl
      rw [List.filter_cons_of_neg (by simpa using ha),
        List.filter_cons_of_pos (by simpa using heq), hnone, hl,
        List.nil_append]

/-- **A list sorted by a key is the concatenation of its groups.** -/
theorem eq_flatMap_filter_of_sorted {key : α → Nat} {n : Nat}
    (hsorted : l.Pairwise fun a b => key a ≤ key b)
    (hlt : ∀ a ∈ l, key a < n) :
    l = (List.range n).flatMap fun k => l.filter fun a => key a = k := by
  induction n generalizing l with
  | zero =>
    cases l with
    | nil => rfl
    | cons a l => exact absurd (hlt a List.mem_cons_self) (Nat.not_lt_zero _)
  | succ n ih =>
    have hbefore := ih (hsorted.filter fun a => key a < n) fun a ha =>
      by simpa using (List.mem_filter.mp ha).2
    have hgroups : (List.range n).flatMap (fun k =>
      (l.filter fun a => key a < n).filter fun a => key a = k)
        = (List.range n).flatMap fun k => l.filter fun a => key a = k := by
      refine List.flatMap_congr fun k hk => ?_
      rw [List.filter_filter]
      refine List.filter_congr fun a _ => ?_
      have hkn := List.mem_range.mp hk
      rw [← Bool.decide_and]
      rw [decide_eq_decide]
      omega
    rw [List.range_succ, List.flatMap_append, List.flatMap_singleton, ← hgroups, ← hbefore,
      filter_lt_append_filter_eq hsorted hlt]

end List
