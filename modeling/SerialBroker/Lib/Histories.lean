import Mathlib.Data.List.Basic
import Mathlib.Tactic.TypeStar

/-!
# Records in which every entry was allowed by those before it

A record is written from left to right. What may be written next depends on what stands there
already, so a property of a record is a property of each of its prefixes and the entry after it, and
is kept by writing one allowed entry more.
-/

namespace History

variable {α : Type*} {Allowed : List α → α → Prop} {l l' : List α} {a : α}

/-- Every entry was allowed by those before it. -/
def Lawful (Allowed : List α → α → Prop) (l : List α) : Prop :=
  ∀ before a after, l = before ++ a :: after → Allowed before a

theorem lawful_nil : Lawful Allowed [] := fun before a after h => by
  cases before <;> cases h

/-- A lawful record goes on with entries each of which is allowed where it is written. -/
theorem Lawful.append (h : Lawful Allowed l)
    (hnew : ∀ before a after, l' = before ++ a :: after → Allowed (l ++ before) a) :
    Lawful Allowed (l ++ l') := by
  intro before a after heq
  obtain ⟨middle, hbefore, hrest⟩ | ⟨middle, hl, hrest⟩ := List.append_eq_append_iff.mp heq
  · rw [hbefore]
    exact hnew middle a after hrest
  · cases middle with
    | nil =>
      rw [List.append_nil] at hl
      rw [List.nil_append] at hrest
      have hnext := hnew [] a after hrest.symm
      rw [List.append_nil] at hnext
      exact hl ▸ hnext
    | cons b middle =>
      obtain ⟨rfl, -⟩ := List.cons.inj hrest
      exact h before a middle hl

theorem Lawful.concat (h : Lawful Allowed l) (hnew : Allowed l a) : Lawful Allowed (l ++ [a]) := by
  refine h.append fun before b after heq => ?_
  obtain ⟨rfl, hrest⟩ | ⟨middle, rfl, hrest⟩ := List.cons_eq_append_iff.mp heq
  · obtain ⟨rfl, -⟩ := List.cons.inj hrest
    rw [List.append_nil]
    exact hnew
  · cases middle <;> cases hrest

end History
