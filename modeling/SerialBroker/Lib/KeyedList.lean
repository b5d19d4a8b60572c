import Mathlib.Data.List.Basic
import Mathlib.Data.List.Nodup

/-!
# Lists as insertion-ordered maps

A list of records in which each is found by its key: `put` replaces a record in its place or adds it
at the end, as a map does that iterates in insertion order; `adjust` changes the record of one key;
`erase` removes it. `Distinct` says that no key occurs twice, which every operation keeps.
-/

namespace KeyedList

variable {α K K' : Type*} [DecidableEq K] (key : α → K)

/-- The first record of the key. -/
def lookup (k : K) (l : List α) : Option α := l.find? fun a => key a = k

/-- The record put in the place of the one with its key, or at the end. -/
def put (a : α) : List α → List α
  | [] => [a]
  | b :: l => if key b = key a then a :: l else b :: put a l

/-- The list with the record of the key changed. -/
def adjust (k : K) (f : α → α) (l : List α) : List α := l.map fun a => if key a = k then f a else a

/-- The list without the record of the key. -/
def erase (k : K) (l : List α) : List α := l.filter fun a => key a ≠ k

omit [DecidableEq K] in
/-- No key occurs twice. -/
def Distinct (l : List α) : Prop := (l.map key).Nodup

variable {key} {k k' : K} {a b : α} {l : List α} {f : α → α}

/-! ### finding a record -/

theorem mem_of_lookup (h : lookup key k l = some a) : a ∈ l := List.mem_of_find?_eq_some h

theorem key_of_lookup (h : lookup key k l = some a) : key a = k := by
  simpa using List.find?_some h

theorem lookup_eq_none : lookup key k l = none ↔ ∀ a ∈ l, key a ≠ k := by
  simp [lookup]

omit [DecidableEq K] in
theorem Distinct.eq_of_mem (hl : Distinct key l) (ha : a ∈ l) (hb : b ∈ l) (h : key a = key b) :
    a = b :=
  List.inj_on_of_nodup_map hl ha hb h

theorem Distinct.lookup (hl : Distinct key l) (ha : a ∈ l) : lookup key (key a) l = some a := by
  cases hfind : KeyedList.lookup key (key a) l with
  | none => exact absurd rfl (lookup_eq_none.mp hfind a ha)
  | some b => rw [hl.eq_of_mem (mem_of_lookup hfind) ha (key_of_lookup hfind)]

theorem Distinct.lookup_iff (hl : Distinct key l) :
    KeyedList.lookup key k l = some a ↔ a ∈ l ∧ key a = k := by
  constructor
  · exact fun h => ⟨mem_of_lookup h, key_of_lookup h⟩
  · rintro ⟨ha, rfl⟩
    exact hl.lookup ha

/-! ### changing the list -/

theorem mem_adjust : b ∈ adjust key k f l ↔ ∃ a ∈ l, b = if key a = k then f a else a := by
  simp only [adjust, List.mem_map, eq_comm]

@[simp] theorem length_adjust : (adjust key k f l).length = l.length := List.length_map ..

theorem Distinct.adjust {key' : α → K'} (hl : Distinct key' l)
    (hf : ∀ a ∈ l, key a = k → key' (f a) = key' a) : Distinct key' (adjust key k f l) := by
  have hmap : (KeyedList.adjust key k f l).map key' = l.map key' := by
    unfold KeyedList.adjust
    rw [List.map_map]
    refine List.map_congr_left fun a ha => ?_
    simp only [Function.comp_apply]
    split
    · next hk => exact hf a ha hk
    · rfl
  rw [Distinct, hmap]
  exact hl

/-- A selection that a change of records does not affect. -/
theorem filter_adjust {p : α → Bool} (hf : ∀ a, p (f a) = p a) :
    (adjust key k f l).filter p = adjust key k f (l.filter p) := by
  unfold adjust
  rw [List.filter_map]
  congr 1
  refine List.filter_congr fun a _ => ?_
  simp only [Function.comp_apply]
  split
  · exact hf a
  · rfl

theorem adjust_eq_self (hf : ∀ a ∈ l, key a = k → f a = a) : adjust key k f l = l := by
  unfold adjust
  refine (List.map_congr_left fun a ha => ?_).trans l.map_id
  split
  · next hk => exact hf a ha hk
  · rfl

theorem adjust_of_ne (h : ∀ a ∈ l, key a ≠ k) : adjust key k f l = l :=
  adjust_eq_self fun a ha hk => absurd hk (h a ha)

theorem map_adjust {β : Type*} {g : α → β} (hf : ∀ a, g (f a) = g a) :
    (adjust key k f l).map g = l.map g := by
  unfold adjust
  rw [List.map_map]
  refine List.map_congr_left fun a _ => ?_
  simp only [Function.comp_apply]
  split
  · exact hf a
  · rfl

theorem mem_erase : b ∈ erase key k l ↔ b ∈ l ∧ key b ≠ k := by
  simp [erase]

theorem length_erase_lt (ha : a ∈ l) (hk : key a = k) : (erase key k l).length < l.length :=
  List.length_filter_lt_length_iff_exists.mpr ⟨a, ha, by simpa using hk⟩

theorem Distinct.erase {key' : α → K'} (hl : Distinct key' l) : Distinct key' (erase key k l) :=
  hl.sublist (List.filter_sublist.map _)

omit [DecidableEq K] in
theorem Distinct.ne_of_split {l r : List α} (hl : Distinct key (l ++ a :: r)) :
    ∀ b ∈ l ++ r, key b ≠ key a := by
  intro b hb heq
  simp only [Distinct, List.map_append, List.map_cons, List.nodup_append, List.nodup_cons] at hl
  rcases List.mem_append.mp hb with hb | hb
  · exact hl.2.2 _ (List.mem_map_of_mem hb) _ List.mem_cons_self heq
  · exact hl.2.1.1 (heq ▸ List.mem_map_of_mem hb)

theorem Distinct.adjust_split {l r : List α} (hl : Distinct key (l ++ a :: r)) :
    KeyedList.adjust key (key a) f (l ++ a :: r) = l ++ f a :: r := by
  have hkept : ∀ l' : List α, (∀ b ∈ l', b ∈ l ++ r) → l'.map (fun b =>
      if key b = key a then f b else b) = l' := fun l' hl' =>
    (List.map_congr_left fun b hb => if_neg (hl.ne_of_split b (hl' b hb))).trans l'.map_id
  rw [KeyedList.adjust, List.map_append, List.map_cons, hkept l fun b hb =>
    List.mem_append_left _ hb,
    hkept r fun b hb => List.mem_append_right _ hb, if_pos rfl]

theorem Distinct.erase_split {l r : List α} (hl : Distinct key (l ++ a :: r)) :
    KeyedList.erase key (key a) (l ++ a :: r) = l ++ r := by
  have hkept := List.filter_eq_self.mpr fun b hb => decide_eq_true (hl.ne_of_split b hb)
  rw [List.filter_append] at hkept
  rw [KeyedList.erase, List.filter_append, List.filter_cons_of_neg (by simp), hkept]

theorem put_cons : put key a (b :: l) = if key b = key a then a :: l else b :: put key a l := rfl

theorem mem_of_mem_put (h : b ∈ put key a l) : b = a ∨ b ∈ l := by
  induction l with
  | nil => exact Or.inl (List.mem_singleton.mp h)
  | cons c l ih =>
    rw [put_cons] at h
    split at h
    · exact (List.mem_cons.mp h).imp_right (List.mem_cons_of_mem _)
    · rcases List.mem_cons.mp h with rfl | h
      · exact Or.inr List.mem_cons_self
      · exact (ih h).imp_right (List.mem_cons_of_mem _)

theorem mem_put_self : a ∈ put key a l := by
  induction l with
  | nil => exact List.mem_singleton_self a
  | cons c l ih =>
    rw [put_cons]
    split
    · exact List.mem_cons_self
    · exact List.mem_cons_of_mem _ ih

theorem mem_put_of_ne (hb : b ∈ l) (hne : key b ≠ key a) : b ∈ put key a l := by
  induction l with
  | nil => cases hb
  | cons c l ih =>
    rw [put_cons]
    split
    · next hc =>
      rcases List.mem_cons.mp hb with rfl | hb
      · exact absurd hc hne
      · exact List.mem_cons_of_mem _ hb
    · rcases List.mem_cons.mp hb with rfl | hb
      · exact List.mem_cons_self
      · exact List.mem_cons_of_mem _ (ih hb)

theorem put_of_lookup_none (h : lookup key (key a) l = none) : put key a l = l ++ [a] := by
  induction l with
  | nil => rfl
  | cons c l ih =>
    have hne := lookup_eq_none.mp h
    rw [put_cons, if_neg (hne c List.mem_cons_self),
      ih (lookup_eq_none.mpr fun b hb => hne b (List.mem_cons_of_mem _ hb)), List.cons_append]

theorem length_put_of_mem (hb : b ∈ l) (hk : key b = key a) : (put key a l).length = l.length := by
  induction l with
  | nil => cases hb
  | cons c l ih =>
    rw [put_cons]
    split
    · rfl
    · next hc =>
      rcases List.mem_cons.mp hb with rfl | hb
      · exact absurd hk hc
      · simp only [List.length_cons, ih hb]

/-- Putting a record that is there changes nothing. -/
theorem put_of_lookup (h : lookup key (key a) l = some a) : put key a l = l := by
  induction l with
  | nil => cases h
  | cons c l ih =>
    rw [put_cons]
    split
    · next hc =>
      have hca : c = a := by simpa [lookup, hc] using h
      rw [hca]
    · next hc =>
      have hl : lookup key (key a) l = some a := by simpa [lookup, hc] using h
      rw [ih hl]

theorem map_put {β : Type*} {key' : β → K} {g : α → β} (hg : ∀ a, key' (g a) = key a) :
    (put key a l).map g = put key' (g a) (l.map g) := by
  induction l with
  | nil => rfl
  | cons c l ih =>
    simp only [put_cons, List.map_cons, hg]
    split
    · rfl
    · rw [List.map_cons, ih]

theorem length_put_le : (put key a l).length ≤ l.length + 1 := by
  induction l with
  | nil => exact Nat.le_refl _
  | cons c l ih =>
    rw [put_cons]
    split
    · exact Nat.le_succ _
    · exact Nat.succ_le_succ ih

/-- Another key that the new record brings fresh stays distinct. -/
theorem Distinct.put {key' : α → K'} (hl : Distinct key' l) (hfresh : ∀ b ∈ l, key' b ≠ key' a) :
    Distinct key' (put key a l) := by
  induction l with
  | nil => exact List.nodup_singleton _
  | cons c l ih =>
    obtain ⟨hc, hl⟩ := List.nodup_cons.mp hl
    have hfresh' : ∀ b ∈ l, key' b ≠ key' a := fun b hb => hfresh b (List.mem_cons_of_mem _ hb)
    rw [put_cons]
    split
    · refine List.nodup_cons.mpr ⟨fun hmem => ?_, hl⟩
      obtain ⟨b, hb, hba⟩ := List.mem_map.mp hmem
      exact hfresh' b hb hba
    · refine List.nodup_cons.mpr ⟨fun hmem => ?_, ih hl hfresh'⟩
      obtain ⟨b, hb, hbc⟩ := List.mem_map.mp hmem
      rcases mem_of_mem_put hb with rfl | hb
      · exact hfresh c List.mem_cons_self hbc.symm
      · exact hc (List.mem_map.mpr ⟨b, hb, hbc⟩)

omit [DecidableEq K] in
theorem Distinct.concat (hl : Distinct key l) (hfresh : ∀ b ∈ l, key b ≠ key a) :
    Distinct key (l ++ [a]) := by
  rw [Distinct, List.map_append, List.map_singleton]
  refine List.Nodup.append hl (List.nodup_singleton _) fun k hk hka => ?_
  obtain ⟨b, hb, rfl⟩ := List.mem_map.mp hk
  exact hfresh b hb (List.mem_singleton.mp hka)

theorem Distinct.put_self (hl : Distinct key l) : Distinct key (KeyedList.put key a l) := by
  induction l with
  | nil => exact List.nodup_singleton _
  | cons c l ih =>
    obtain ⟨hc, hl⟩ := List.nodup_cons.mp hl
    rw [put_cons]
    split
    · next hca =>
      refine List.nodup_cons.mpr ⟨?_, hl⟩
      rw [← hca]
      exact hc
    · next hca =>
      refine List.nodup_cons.mpr ⟨fun hmem => ?_, ih hl⟩
      obtain ⟨b, hb, hbc⟩ := List.mem_map.mp hmem
      rcases mem_of_mem_put hb with rfl | hb
      · exact hca hbc.symm
      · exact hc (List.mem_map.mpr ⟨b, hb, hbc⟩)

/-- What is in the list after a `put` is the new record, or one of another key. -/
theorem Distinct.mem_put (hl : Distinct key l) :
    b ∈ KeyedList.put key a l ↔ b = a ∨ (b ∈ l ∧ key b ≠ key a) := by
  constructor
  · intro hb
    by_cases hk : key b = key a
    · exact Or.inl (hl.put_self.eq_of_mem hb mem_put_self hk)
    · exact (mem_of_mem_put hb).imp_right fun hb => ⟨hb, hk⟩
  · rintro (rfl | ⟨hb, hk⟩)
    · exact mem_put_self
    · exact mem_put_of_ne hb hk

/-! ### finding a record in the changed list -/

theorem lookup_cons : lookup key k (b :: l) = if key b = k then some b else lookup key k l := by
  by_cases hk : key b = k <;> simp [lookup, hk]

theorem lookup_put : lookup key k (put key a l) = if key a = k then some a else lookup key k l := by
  induction l with
  | nil => exact lookup_cons
  | cons b l ih =>
    rw [put_cons]
    split
    · next hb =>
      rw [lookup_cons, lookup_cons, hb]
      split
      · rfl
      · rfl
    · next hb =>
      rw [lookup_cons, lookup_cons, ih]
      split
      · next hk => rw [if_neg fun h => hb (hk.trans h.symm)]
      · rfl

theorem lookup_erase : lookup key k (erase key k' l) = if k = k' then none else lookup key k l := by
  split
  · next hk => exact lookup_eq_none.mpr fun a ha h => (mem_erase.mp ha).2 (h.trans hk)
  · next hk =>
    unfold erase lookup
    rw [List.find?_filter]
    refine congrArg (List.find? · l) (funext fun a => ?_)
    by_cases ha : key a = k
    · simp [ha, hk]
    · simp [ha]

theorem lookup_adjust (hf : ∀ a, key (f a) = key a) :
    lookup key k (adjust key k' f l) =
      if k = k' then (lookup key k l).map f else lookup key k l := by
  induction l with
  | nil => split <;> rfl
  | cons b l ih =>
    rw [adjust, List.map_cons, lookup_cons, lookup_cons]
    have hkey : key (if key b = k' then f b else b) = key b := by
      split
      · exact hf b
      · rfl
    rw [hkey]
    by_cases hb : key b = k
    · subst hb
      simp only [if_true, Option.map_some]
      split <;> rfl
    · simp only [hb, if_false]
      exact ih

theorem lookup_concat :
    lookup key k (l ++ [a]) = (lookup key k l).or (if key a = k then some a else none) := by
  unfold lookup
  rw [List.find?_append]
  by_cases hk : key a = k <;> simp [hk]

/-- A record and the list without it. -/
theorem Distinct.perm_cons_erase (hl : Distinct key l) (ha : a ∈ l) :
    (a :: KeyedList.erase key (key a) l).Perm l := by
  obtain ⟨l₁, l₂, rfl⟩ := List.append_of_mem ha
  rw [hl.erase_split]
  exact List.perm_middle.symm

/-- The order of the records does not matter. -/
theorem Distinct.lookup_perm {l' : List α} (hl : Distinct key l) (hperm : l.Perm l') :
    KeyedList.lookup key k l = KeyedList.lookup key k l' := by
  have hl' : Distinct key l' := (hperm.map key).nodup_iff.mp hl
  refine Option.ext fun a => ?_
  rw [hl.lookup_iff, hl'.lookup_iff, hperm.mem_iff]

end KeyedList
