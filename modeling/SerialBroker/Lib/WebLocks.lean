import Mathlib.Data.List.Nodup
import Mathlib.Tactic.TypeStar

/-!
# Web locks

The lock manager's record of one lock name: the requests it has granted, and the queue of those it
has not. A request is granted when it is the first of the queue and conflicts with nothing that is
held, so requests are served in the order they came and any number of shared ones hold the lock
together. A request with `ifAvailable` is never queued: it is granted at once, or answered that it
cannot be.
-/

/-- One request for a lock; `id` says whose and what for. -/
structure LockRequest (ι : Type*) where
  id : ι
  isExclusive : Bool
  deriving DecidableEq

structure WebLock (ι : Type*) where
  held : List (LockRequest ι)
  queue : List (LockRequest ι)
  deriving DecidableEq

namespace WebLock

variable {ι : Type*} {lock lock' : WebLock ι} {r r' : LockRequest ι}

def free : WebLock ι := ⟨[], []⟩

def request (lock : WebLock ι) (r : LockRequest ι) : WebLock ι :=
  { lock with queue := lock.queue ++ [r] }

/-- Whether the request conflicts with nothing that is held. -/
def isCompatible (lock : WebLock ι) (r : LockRequest ι) : Bool :=
  if r.isExclusive then lock.held.isEmpty else lock.held.all fun h => !h.isExclusive

/-- Whether a shared request with `ifAvailable` is granted. -/
def isAvailable (lock : WebLock ι) : Bool :=
  lock.queue.isEmpty && lock.held.all fun h => !h.isExclusive

/-- Grants a request with `ifAvailable`, which is never queued. -/
def grantIfAvailable (lock : WebLock ι) (r : LockRequest ι) : Option (WebLock ι) :=
  if lock.queue.isEmpty && lock.isCompatible r then
    some { lock with held := lock.held ++ [r] }
  else none

variable [DecidableEq ι]

/-- Grants the first request of the queue, if it is this one and conflicts with nothing. -/
def grant (lock : WebLock ι) (id : ι) : Option (WebLock ι) :=
  match lock.queue with
  | [] => none
  | r :: queue =>
    if r.id = id ∧ lock.isCompatible r = true then some ⟨lock.held ++ [r], queue⟩ else none

def withdraw (lock : WebLock ι) (id : ι) : WebLock ι :=
  { lock with queue := lock.queue.filter fun r => r.id ≠ id }

def letGo (lock : WebLock ι) (id : ι) : WebLock ι :=
  { lock with held := lock.held.filter fun r => r.id ≠ id }

/-- What is left of a lock when a context with these requests dies. -/
def drop (lock : WebLock ι) (isOf : ι → Bool) : WebLock ι :=
  ⟨lock.held.filter fun r => !isOf r.id, lock.queue.filter fun r => !isOf r.id⟩

def isHeldBy (lock : WebLock ι) (id : ι) : Prop := ∃ r ∈ lock.held, r.id = id

def isQueuedBy (lock : WebLock ι) (id : ι) : Prop := ∃ r ∈ lock.queue, r.id = id

instance (id : ι) : Decidable (lock.isHeldBy id) :=
  inferInstanceAs (Decidable (∃ r ∈ lock.held, r.id = id))

instance (id : ι) : Decidable (lock.isQueuedBy id) :=
  inferInstanceAs (Decidable (∃ r ∈ lock.queue, r.id = id))

/-- **Mutual exclusion**: who holds the lock exclusively holds it alone. -/
def Exclusion (lock : WebLock ι) : Prop := ∀ r ∈ lock.held, r.isExclusive = true → lock.held = [r]

omit [DecidableEq ι] in
theorem exclusion_free : (free : WebLock ι).Exclusion := fun _ hr => absurd hr List.not_mem_nil

omit [DecidableEq ι] in
theorem Exclusion.request (h : lock.Exclusion) (r : LockRequest ι) : (lock.request r).Exclusion := h

theorem grant_eq_some {id : ι} : lock.grant id = some lock' ↔
    ∃ r, lock.queue = r :: lock'.queue ∧ r.id = id ∧ lock.isCompatible r = true ∧
      lock'.held = lock.held ++ [r] := by
  unfold grant
  cases hqueue : lock.queue with
  | nil => simp
  | cons r queue =>
    simp only [Option.ite_none_right_eq_some, Option.some.injEq]
    constructor
    · rintro ⟨⟨hid, hcompatible⟩, rfl⟩
      exact ⟨r, rfl, hid, hcompatible, rfl⟩
    · rintro ⟨r', hcons, hid, hcompatible, hheld⟩
      obtain ⟨rfl, rfl⟩ := List.cons.inj hcons
      exact ⟨⟨hid, hcompatible⟩, by rw [← hheld]⟩

omit [DecidableEq ι] in
theorem not_exclusive_of_compatible (hcompatible : lock.isCompatible r = true)
    (hheld : r' ∈ lock.held) :
    r'.isExclusive = false ∧ r.isExclusive = false := by
  unfold isCompatible at hcompatible
  split at hcompatible
  · rw [List.isEmpty_iff.mp hcompatible] at hheld
    exact absurd hheld List.not_mem_nil
  · next hshared =>
      exact ⟨by simpa using List.all_eq_true.mp hcompatible r' hheld, by simpa using hshared⟩

omit [DecidableEq ι] in
theorem grantIfAvailable_eq_some : lock.grantIfAvailable r = some lock' ↔
    lock.queue = [] ∧ lock.isCompatible r = true ∧ lock' = ⟨lock.held ++ [r], lock.queue⟩ := by
  simp only [grantIfAvailable, Bool.and_eq_true, List.isEmpty_iff, Option.ite_none_right_eq_some,
    Option.some.injEq,
    and_assoc, @eq_comm _ _ lock']

omit [DecidableEq ι] in
/-- Whoever is granted the lock, if nothing it conflicts with is held, leaves it exclusive. -/
theorem exclusion_of_compatible (hcompatible : lock.isCompatible r = true)
    (hheld : lock'.held = lock.held ++ [r]) :
    lock'.Exclusion := by
  intro r' hr' hexclusive
  rw [hheld] at hr' ⊢
  rcases List.mem_append.mp hr' with hr' | hr'
  · rw [(not_exclusive_of_compatible hcompatible hr').1] at hexclusive
    exact nomatch hexclusive
  · obtain rfl := List.mem_singleton.mp hr'
    unfold isCompatible at hcompatible
    rw [if_pos hexclusive] at hcompatible
    rw [List.isEmpty_iff.mp hcompatible]
    rfl

theorem exclusion_of_grant {id : ι} (hgrant : lock.grant id = some lock') : lock'.Exclusion := by
  obtain ⟨r, -, -, hcompatible, hheld⟩ := grant_eq_some.mp hgrant
  exact exclusion_of_compatible hcompatible hheld

omit [DecidableEq ι] in
/-- Fewer holders exclude each other all the more. -/
theorem Exclusion.filter (h : lock.Exclusion) (p : LockRequest ι → Bool)
    (queue : List (LockRequest ι)) :
    (⟨lock.held.filter p, queue⟩ : WebLock ι).Exclusion := by
  intro r hr hexclusive
  obtain ⟨hmem, hp⟩ := List.mem_filter.mp hr
  have halone := h r hmem hexclusive
  dsimp only
  rw [halone, List.filter_cons_of_pos hp, List.filter_nil]

theorem Exclusion.withdraw (h : lock.Exclusion) (id : ι) : (lock.withdraw id).Exclusion := h

theorem Exclusion.letGo (h : lock.Exclusion) (id : ι) : (lock.letGo id).Exclusion := h.filter _ _

omit [DecidableEq ι] in
theorem Exclusion.drop (h : lock.Exclusion) (isOf : ι → Bool) :
    (lock.drop isOf).Exclusion := h.filter _ _

/-! ### exclusive requests, one of each client -/

/-- What one client has of the lock. -/
inductive Use where
  | none
  | queued
  | held
  deriving DecidableEq

/-- The clients use the lock so, each with at most one request, and every request is exclusive. -/
structure Tracks (lock : WebLock ι) (use : ι → Use) : Prop where
  held : ∀ id, lock.isHeldBy id ↔ use id = .held
  queued : ∀ id, lock.isQueuedBy id ↔ use id = .queued
  alone : ∀ r ∈ lock.held, lock.held = [r]
  exclusive : ∀ r ∈ lock.queue, r.isExclusive = true
  distinct : (lock.queue.map (·.id)).Nodup

variable {use : ι → Use} {id : ι}

omit [DecidableEq ι] in
theorem tracks_free : (free : WebLock ι).Tracks fun _ => .none where
  held := fun id => ⟨fun h => absurd h.choose_spec.1 List.not_mem_nil, fun h => by cases h⟩
  queued := fun id => ⟨fun h => absurd h.choose_spec.1 List.not_mem_nil, fun h => by cases h⟩
  alone := fun r hr => absurd hr List.not_mem_nil
  exclusive := fun r hr => absurd hr List.not_mem_nil
  distinct := List.nodup_nil

theorem decide_ne_iff (id : ι) (r : LockRequest ι) : decide (r.id ≠ id) = true ↔ r.id ≠ id :=
  decide_eq_true_iff

theorem not_decide_eq_iff (id : ι) (r : LockRequest ι) :
    (!decide (r.id = id)) = true ↔ r.id ≠ id := by
  rw [Bool.not_eq_true', decide_eq_false_iff_not]

omit [DecidableEq ι] in
/-- Who is left of the clients once some of the requests are taken away. -/
theorem exists_filter_iff {requests : List (LockRequest ι)} {p : LockRequest ι → Bool}
    (hp : ∀ r, p r = true ↔ r.id ≠ id)
    (other : ι) : (∃ r ∈ requests.filter p, r.id = other) ↔
      (∃ r ∈ requests, r.id = other) ∧ other ≠ id := by
  constructor
  · rintro ⟨r, hr, rfl⟩
    obtain ⟨hmem, hleft⟩ := List.mem_filter.mp hr
    exact ⟨⟨r, hmem, rfl⟩, (hp r).mp hleft⟩
  · rintro ⟨⟨r, hr, rfl⟩, hleft⟩
    exact ⟨r, List.mem_filter.mpr ⟨hr, (hp r).mpr hleft⟩, rfl⟩

theorem update_eq_iff_of_ne {value new : Use} (hold : use id ≠ value) (hnew : new ≠ value)
    (other : ι) :
    Function.update use id new other = value ↔ use other = value := by
  rw [Function.update_apply]
  split
  · next heq =>
    rw [heq]
    exact iff_of_false hnew hold
  · rfl

theorem update_none_eq_iff {value : Use} (hvalue : value ≠ .none) (other : ι) :
    Function.update use id .none other = value ↔ use other = value ∧ other ≠ id := by
  rw [Function.update_apply]
  split
  · next heq => exact iff_of_false hvalue.symm fun hand => hand.2 heq
  · next hne => exact ⟨fun hother => ⟨hother, hne⟩, fun hand => hand.1⟩

namespace Tracks

omit [DecidableEq ι] in
theorem alone_filter (h : lock.Tracks use) (p : LockRequest ι → Bool) :
    ∀ r ∈ lock.held.filter p, lock.held.filter p = [r] := by
  intro r hr
  obtain ⟨hmem, hp⟩ := List.mem_filter.mp hr
  rw [h.alone r hmem, List.filter_cons_of_pos hp, List.filter_nil]

omit [DecidableEq ι] in
theorem unique (h : lock.Tracks use) {id' : ι} (hid : use id = .held) (hid' : use id' = .held) :
    id = id' := by
  obtain ⟨r, hr, rfl⟩ := (h.held id).mpr hid
  obtain ⟨r', hr', rfl⟩ := (h.held id').mpr hid'
  rw [h.alone r hr] at hr'
  rw [List.mem_singleton.mp hr']

theorem request (h : lock.Tracks use) (hnone : use id = .none) :
    (lock.request ⟨id, true⟩).Tracks (Function.update use id .queued) where
  held := by
    intro other
    rw [update_eq_iff_of_ne (by rw [hnone]; decide) (by decide)]
    exact h.held other
  queued := by
    intro other
    have hiff : (lock.request ⟨id, true⟩).isQueuedBy other ↔
        lock.isQueuedBy other ∨ other = id := by
      simp only [WebLock.request, isQueuedBy, List.mem_append, List.mem_singleton, or_and_right,
        exists_or, exists_eq_left,
        eq_comm]
    rw [hiff, h.queued, Function.update_apply]
    split
    · next heq => exact ⟨fun _ => rfl, fun _ => .inr heq⟩
    · next hne => exact ⟨fun hor => hor.resolve_right hne, .inl⟩
  alone := h.alone
  exclusive := by
    intro r hr
    obtain hr | hr := List.mem_append.mp hr
    · exact h.exclusive r hr
    · rw [List.mem_singleton.mp hr]
  distinct := by
    simp only [WebLock.request, List.map_append, List.map_cons, List.map_nil]
    refine List.nodup_append.mpr ⟨h.distinct, List.nodup_singleton id,
      fun other hmem last hlast heq => ?_⟩
    obtain ⟨r, hr, hid⟩ := List.mem_map.mp hmem
    rw [List.mem_singleton.mp hlast] at heq
    rw [(h.queued id).mp ⟨r, hr, hid.trans heq⟩] at hnone
    cases hnone

theorem grant (h : lock.Tracks use) (hgrant : lock.grant id = some lock') :
    lock'.Tracks (Function.update use id .held) := by
  obtain ⟨r, hqueue, rfl, hcompatible, hheld⟩ := grant_eq_some.mp hgrant
  have hnone : lock.held = [] := by
    have hexclusive := h.exclusive r (hqueue ▸ List.mem_cons_self)
    rw [isCompatible, if_pos hexclusive] at hcompatible
    exact List.isEmpty_iff.mp hcompatible
  have hdistinct := h.distinct
  rw [hqueue, List.map_cons, List.nodup_cons] at hdistinct
  rw [hnone, List.nil_append] at hheld
  have hothers : ∀ id, id ≠ r.id → (lock'.isQueuedBy id ↔ lock.isQueuedBy id) := by
    intro id hne
    simp only [isQueuedBy, hqueue, List.mem_cons, or_and_right, exists_or, exists_eq_left]
    exact ⟨.inr, fun hor => hor.resolve_left fun heq => hne heq.symm⟩
  refine ⟨fun id => ?_, fun id => ?_, fun r' hr' => ?_, fun r' hr' => ?_, hdistinct.2⟩
  · rw [isHeldBy, hheld, Function.update_apply]
    split
    · next heq => exact ⟨fun _ => rfl, fun _ => ⟨r, List.mem_singleton_self r, heq.symm⟩⟩
    · next hne =>
      refine ⟨fun ⟨r', hr', hid⟩ => absurd (by rw [← hid, List.mem_singleton.mp hr']) hne,
        fun hid => ?_⟩
      obtain ⟨r', hr', -⟩ := (h.held id).mpr hid
      rw [hnone] at hr'
      cases hr'
  · rw [Function.update_apply]
    split
    · next heq =>
      refine ⟨fun ⟨r', hr', hid⟩ => absurd (List.mem_map.mpr ⟨r', hr', hid.trans heq⟩) hdistinct.1,
        fun hid => by cases hid⟩
    · next hne => rw [hothers id hne, h.queued]
  · rw [hheld] at hr' ⊢
    rw [List.mem_singleton.mp hr']
  · exact h.exclusive r' (hqueue ▸ List.mem_cons_of_mem _ hr')

theorem letGo (h : lock.Tracks use) (hheld : use id = .held) :
    (lock.letGo id).Tracks (Function.update use id .none) where
  held := by
    intro other
    rw [update_none_eq_iff (by decide), ← h.held]
    exact exists_filter_iff (decide_ne_iff id) other
  queued := by
    intro other
    rw [update_eq_iff_of_ne (by rw [hheld]; decide) (by decide)]
    exact h.queued other
  alone := h.alone_filter _
  exclusive := h.exclusive
  distinct := h.distinct

theorem withdraw (h : lock.Tracks use) (hqueued : use id = .queued) :
    (lock.withdraw id).Tracks (Function.update use id .none) where
  held := by
    intro other
    rw [update_eq_iff_of_ne (by rw [hqueued]; decide) (by decide)]
    exact h.held other
  queued := by
    intro other
    rw [update_none_eq_iff (by decide), ← h.queued]
    exact exists_filter_iff (decide_ne_iff id) other
  alone := h.alone
  exclusive := fun r hr => h.exclusive r (List.mem_filter.mp hr).1
  distinct := h.distinct.sublist (List.filter_sublist.map _)

theorem drop (h : lock.Tracks use) (id : ι) :
    (lock.drop fun other => decide (other = id)).Tracks (Function.update use id .none) where
  held := by
    intro other
    rw [update_none_eq_iff (by decide), ← h.held]
    exact exists_filter_iff (not_decide_eq_iff id) other
  queued := by
    intro other
    rw [update_none_eq_iff (by decide), ← h.queued]
    exact exists_filter_iff (not_decide_eq_iff id) other
  alone := h.alone_filter _
  exclusive := fun r hr => h.exclusive r (List.mem_filter.mp hr).1
  distinct := h.distinct.sublist (List.filter_sublist.map _)

/-- A lock that nobody holds is granted to the first of those who queue for it. -/
theorem exists_grant (h : lock.Tracks use) (hqueued : use id = .queued)
    (hfree : ∀ other, use other ≠ .held) :
    ∃ first lock', use first = .queued ∧ lock.grant first = some lock' := by
  obtain ⟨r, hr, -⟩ := (h.queued id).mpr hqueued
  have hnone : lock.held = [] := by
    refine List.eq_nil_iff_forall_not_mem.mpr fun r hr => hfree r.id ((h.held r.id).mp ⟨r, hr, rfl⟩)
  cases hqueue : lock.queue with
  | nil =>
    rw [hqueue] at hr
    cases hr
  | cons first queue =>
    have hmem : first ∈ lock.queue := hqueue ▸ List.mem_cons_self
    refine ⟨first.id, ⟨lock.held ++ [first], queue⟩, (h.queued _).mp ⟨first, hmem, rfl⟩, ?_⟩
    refine grant_eq_some.mpr ⟨first, hqueue, rfl, ?_, rfl⟩
    rw [isCompatible, if_pos (h.exclusive first hmem), hnone]
    rfl

end Tracks

end WebLock
