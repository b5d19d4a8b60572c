import Mathlib.Logic.Function.Basic
import Mathlib.Data.List.ReduceOption

/-!
# The stored configurations, one storage operation at a time

A remembered configuration is an entry under a key of its own, and its name is listed in the index,
a JSON array every tab of the origin reads and writes without a lock. A call of the store is
synchronous in its tab, and other tabs still come between any two of its storage operations. So a
call is modelled by the operation it does next, with what it has read so far.

Storage works: no operation throws. Of an entry only its presence is kept. What `save` writes into
it, and the look at the stored resolution before that, decide nothing about the index.
-/

namespace SerialBroker

variable {ν : Type*}

/-- What is stored under the key of the index; an item that is not a string is `none`. -/
inductive IndexValue (ν : Type*) where
  | absent
  | unreadable
  | list (items : List (Option ν))
  deriving DecidableEq

/-- What is stored under the keys of the current format. -/
structure KeyValueStorage (ν : Type*) where
  index : IndexValue ν
  hasEntry : ν → Bool

/-- The names the index lists, and whether the index needs writing back. -/
structure StoredIndex (ν : Type*) where
  names : List ν
  isIntact : Bool
  deriving DecidableEq

/-- A call of the store, by the storage operation it does next. -/
inductive StoreCall (ν : Type*) where
  | writeEntry (name : ν)
  | listName (name : ν)
  | discardIndex (name : ν)
  | writeIndex (names : List ν)
  | findListed (name : ν)
  | discardUnread
  | writeIndexWithout (name : ν) (names : List ν)
  | removeEntry (name : ν)
  deriving DecidableEq

namespace IndexValue

variable [DecidableEq ν]

/-- The index as the store reads it; one that cannot be read gives nothing. -/
def read : IndexValue ν → Option (StoredIndex ν)
  | .absent => some ⟨[], true⟩
  | .unreadable => none
  | .list items =>
    let names := items.reduceOption.eraseDups
    some ⟨names, names.length == items.length⟩

/-- The names a restore would look for. -/
def names (index : IndexValue ν) : List ν := (index.read.map (·.names)).getD []

@[simp] theorem names_absent : (absent : IndexValue ν).names = [] := rfl

@[simp] theorem names_unreadable : (unreadable : IndexValue ν).names = [] := rfl

@[simp] theorem mem_names_list {items : List (Option ν)} {name : ν} :
    name ∈ (list items).names ↔ some name ∈ items := by
  simp [names, read, List.reduceOption_mem_iff]

/-- The index `#writeIndex` leaves behind. -/
def ofNames (names : List ν) : IndexValue ν := .list (names.map some)

@[simp] theorem mem_names_ofNames {names : List ν} {name : ν} :
    name ∈ (ofNames names).names ↔ name ∈ names := by
  simp [ofNames]

theorem names_of_read {index : IndexValue ν} {stored : StoredIndex ν}
    (h : index.read = some stored) :
    index.names = stored.names := by
  rw [names, h]
  rfl

end IndexValue

namespace KeyValueStorage

def setIndex (storage : KeyValueStorage ν) (names : List ν) : KeyValueStorage ν :=
  { storage with index := .ofNames names }

def removeIndex (storage : KeyValueStorage ν) : KeyValueStorage ν :=
  { storage with index := .absent }

@[simp] theorem index_setIndex (storage : KeyValueStorage ν) (names : List ν) :
    (storage.setIndex names).index = .ofNames names := rfl

@[simp] theorem index_removeIndex (storage : KeyValueStorage ν) :
    storage.removeIndex.index = .absent := rfl

@[simp] theorem hasEntry_setIndex (storage : KeyValueStorage ν) (names : List ν) :
    (storage.setIndex names).hasEntry = storage.hasEntry := rfl

@[simp] theorem hasEntry_removeIndex (storage : KeyValueStorage ν) :
    storage.removeIndex.hasEntry = storage.hasEntry := rfl

variable [DecidableEq ν]

def setEntry (storage : KeyValueStorage ν) (name : ν) : KeyValueStorage ν :=
  { storage with hasEntry := Function.update storage.hasEntry name true }

def removeEntry (storage : KeyValueStorage ν) (name : ν) : KeyValueStorage ν :=
  { storage with hasEntry := Function.update storage.hasEntry name false }

@[simp] theorem index_setEntry (storage : KeyValueStorage ν) (name : ν) :
    (storage.setEntry name).index = storage.index := rfl

@[simp] theorem index_removeEntry (storage : KeyValueStorage ν) (name : ν) :
    (storage.removeEntry name).index = storage.index := rfl

theorem hasEntry_setEntry (storage : KeyValueStorage ν) (name : ν) :
    (storage.setEntry name).hasEntry name = true :=
  Function.update_self ..

theorem hasEntry_setEntry_of_hasEntry {storage : KeyValueStorage ν} {name : ν} (written : ν)
    (h : storage.hasEntry name = true) : (storage.setEntry written).hasEntry name = true := by
  simp only [setEntry, Function.update_apply]
  split
  · rfl
  · exact h

end KeyValueStorage

namespace StoreCall

variable [DecidableEq ν]

/-- `save()` of a configuration that is to be remembered. -/
def save (name : ν) : StoreCall ν := .writeEntry name

def remove (name : ν) : StoreCall ν := .findListed name

/-- The call's next storage operation, and what is left of the call after it. -/
def next (storage : KeyValueStorage ν) : StoreCall ν → KeyValueStorage ν × Option (StoreCall ν)
  | .writeEntry name => (storage.setEntry name, some (.listName name))
  | .listName name =>
    match storage.index.read with
    | none => (storage, some (.discardIndex name))
    | some ⟨names, isIntact⟩ =>
      if isIntact && names.contains name then (storage, none)
      else (storage, some (.writeIndex (if names.contains name then names else names ++ [name])))
  | .discardIndex name => (storage.removeIndex, some (.writeIndex [name]))
  | .writeIndex names => (storage.setIndex names, none)
  | .findListed name =>
    match storage.index.read with
    | none => (storage, some .discardUnread)
    | some ⟨names, _⟩ =>
      if names.contains name then
        (storage, some (.writeIndexWithout name (names.filter (· ≠ name))))
      else (storage, none)
  | .discardUnread => (storage.removeIndex, none)
  | .writeIndexWithout name names => (storage.setIndex names, some (.removeEntry name))
  | .removeEntry name => (storage.removeEntry name, none)

/-- Whether the name stays listed through what the call still does, as far as it has read the
index. -/
def keeps (name : ν) : StoreCall ν → Bool
  | .writeIndex names => names.contains name
  | .writeIndexWithout _ names => names.contains name
  | .discardIndex _ => false
  | .discardUnread => false
  | .writeEntry _ => true
  | .listName _ => true
  | .findListed _ => true
  | .removeEntry _ => true

/-- The call is a `save()` of the name, wherever it is. -/
def IsSaveOf (name : ν) : StoreCall ν → Prop
  | .writeEntry written => written = name
  | .listName listed => listed = name
  | .discardIndex listed => listed = name
  | .writeIndex names => name ∈ names
  | .findListed _ => False
  | .discardUnread => False
  | .writeIndexWithout _ _ => False
  | .removeEntry _ => False

/-- The names the call has still to write into the index, as far as it has read it. -/
def unwritten : StoreCall ν → List ν
  | .writeIndex names => names
  | .writeIndexWithout _ names => names
  | .writeEntry _ => []
  | .listName _ => []
  | .discardIndex _ => []
  | .findListed _ => []
  | .discardUnread => []
  | .removeEntry _ => []

/-- Whether a record may be logged before the operation: of an entry or an index that cannot be
used. -/
def isLogging : StoreCall ν → Bool
  | .writeEntry _ => true
  | .discardIndex _ => true
  | .discardUnread => true
  | .listName _ => false
  | .writeIndex _ => false
  | .findListed _ => false
  | .writeIndexWithout _ _ => false
  | .removeEntry _ => false

/-! ### what a save does -/

variable {storage : KeyValueStorage ν} {call rest : StoreCall ν} {name other : ν}

omit [DecidableEq ν] in
theorem isSaveOf_save (name : ν) : (save name).IsSaveOf name := rfl

omit [DecidableEq ν] in
theorem IsSaveOf.eq (h : call.IsSaveOf name) :
    call = .writeEntry name ∨ call = .listName name ∨ call = .discardIndex name ∨
      ∃ names, call = .writeIndex names ∧ name ∈ names := by
  cases call with
  | writeEntry written => exact .inl (congrArg _ h)
  | listName listed => exact .inr (.inl (congrArg _ h))
  | discardIndex listed => exact .inr (.inr (.inl (congrArg _ h)))
  | writeIndex names => exact .inr (.inr (.inr ⟨names, rfl, h⟩))
  | findListed _ => exact h.elim
  | discardUnread => exact h.elim
  | writeIndexWithout _ _ => exact h.elim
  | removeEntry _ => exact h.elim

/-- What reading the index makes of a save: it ends, or goes on to write the index with the name in
it. -/
theorem next_listName (storage : KeyValueStorage ν) (name : ν) :
    ((StoreCall.listName name).next storage = (storage, none) ∧ name ∈ storage.index.names) ∨
    ((StoreCall.listName name).next storage = (storage, some (.discardIndex name)) ∧
      storage.index.names = []) ∨
    ∃ names, (StoreCall.listName name).next storage = (storage, some (.writeIndex names)) ∧
      ∀ listed, listed ∈ names ↔ listed ∈ storage.index.names ∨ listed = name := by
  cases hread : storage.index.read with
  | none =>
    refine .inr (.inl ⟨by simp only [next, hread], ?_⟩)
    rw [IndexValue.names, hread]
    rfl
  | some stored =>
    rw [IndexValue.names_of_read hread]
    obtain ⟨names, isIntact⟩ := stored
    simp only [next, hread]
    split
    · next hlisted => exact .inl ⟨rfl, by simpa using (Bool.and_eq_true_iff.mp hlisted).2⟩
    · refine .inr (.inr ⟨_, rfl, fun listed => ?_⟩)
      split
      · next hmem =>
        have hmem : name ∈ names := by simpa using hmem
        exact ⟨.inl, fun h => h.elim id fun h => h ▸ hmem⟩
      · simp only [List.mem_append, List.mem_singleton]

theorem hasEntry_next (hsave : call.IsSaveOf name) (h : storage.hasEntry other = true) :
    (call.next storage).1.hasEntry other = true := by
  obtain rfl | rfl | rfl | ⟨names, rfl, -⟩ := hsave.eq
  · exact KeyValueStorage.hasEntry_setEntry_of_hasEntry name h
  · obtain ⟨hnext, -⟩ | ⟨hnext, -⟩ | ⟨names, hnext, -⟩ := next_listName storage name
    all_goals
      rw [hnext]
      exact h
  · exact h
  · exact h

/-- After its first operation a save has its entry written. -/
theorem hasEntry_of_next (hsave : call.IsSaveOf name)
    (h : call = .writeEntry name ∨ storage.hasEntry name = true) :
    (call.next storage).1.hasEntry name = true := by
  obtain rfl | h := h
  · exact KeyValueStorage.hasEntry_setEntry storage name
  · exact hasEntry_next hsave h

theorem isSaveOf_next (hsave : call.IsSaveOf name) (hrest : (call.next storage).2 = some rest) :
    rest.IsSaveOf name := by
  obtain rfl | rfl | rfl | ⟨names, rfl, -⟩ := hsave.eq
  · obtain rfl := Option.some.inj hrest
    rfl
  · obtain ⟨hnext, -⟩ | ⟨hnext, -⟩ | ⟨names, hnext, hnames⟩ := next_listName storage name
    all_goals rw [hnext] at hrest
    · cases hrest
    · obtain rfl := Option.some.inj hrest
      rfl
    · obtain rfl := Option.some.inj hrest
      exact (hnames name).mpr (.inr rfl)
  · obtain rfl := Option.some.inj hrest
    exact List.mem_singleton_self name
  · cases hrest

/-- A call that keeps a name listed keeps it so through its next operation. -/
theorem keeps_next (hsave : call.IsSaveOf name) (hkeeps : call.keeps other = true)
    (hlisted : other ∈ storage.index.names) :
    other ∈ (call.next storage).1.index.names ∧ ∀ rest, (call.next storage).2 = some rest →
    rest.keeps other = true := by
  obtain rfl | rfl | rfl | ⟨names, rfl, -⟩ := hsave.eq
  · refine ⟨hlisted, fun rest hrest => ?_⟩
    obtain rfl := Option.some.inj hrest
    rfl
  · obtain ⟨hnext, -⟩ | ⟨-, hnone⟩ | ⟨names, hnext, hnames⟩ := next_listName storage name
    · rw [hnext]
      exact ⟨hlisted, fun rest hrest => by cases hrest⟩
    · rw [hnone] at hlisted
      cases hlisted
    · rw [hnext]
      refine ⟨hlisted, fun rest hrest => ?_⟩
      obtain rfl := Option.some.inj hrest
      simpa [keeps] using (hnames other).mpr (.inl hlisted)
  · cases hkeeps
  · have hmem : other ∈ names := by simpa [keeps] using hkeeps
    exact ⟨IndexValue.mem_names_ofNames.mpr hmem, fun rest hrest => by cases hrest⟩

/-- A save returns with its name listed. -/
theorem listed_of_returns (hsave : call.IsSaveOf name) (hreturns : (call.next storage).2 = none) :
    name ∈ (call.next storage).1.index.names := by
  obtain rfl | rfl | rfl | ⟨names, rfl, hmem⟩ := hsave.eq
  · cases hreturns
  · obtain ⟨hnext, hlisted⟩ | ⟨hnext, -⟩ | ⟨names, hnext, -⟩ := next_listName storage name
    all_goals rw [hnext] at hreturns ⊢
    · exact hlisted
    · cases hreturns
    · cases hreturns
  · cases hreturns
  · exact IndexValue.mem_names_ofNames.mpr hmem

/-- A save lists nothing but its own name, the names it has read and those that were listed. -/
theorem names_next (hsave : call.IsSaveOf name)
    (h : other ∈ (call.next storage).1.index.names ∨ ∃ rest, (call.next storage).2 = some rest ∧
      other ∈ rest.unwritten) :
    other ∈ storage.index.names ∨ other ∈ call.unwritten ∨ other = name := by
  obtain rfl | rfl | rfl | ⟨names, rfl, -⟩ := hsave.eq
  · obtain h | ⟨rest, hrest, h⟩ := h
    · exact .inl h
    · obtain rfl := Option.some.inj hrest
      cases h
  · obtain ⟨hnext, -⟩ | ⟨hnext, -⟩ | ⟨names, hnext, hnames⟩ := next_listName storage name
    all_goals
      rw [hnext] at h
      obtain h | ⟨rest, hrest, h⟩ := h
      · exact .inl h
    · cases hrest
    · obtain rfl := Option.some.inj hrest
      cases h
    · obtain rfl := Option.some.inj hrest
      exact ((hnames other).mp h).imp id .inr
  · obtain h | ⟨rest, hrest, h⟩ := h
    · exact absurd h List.not_mem_nil
    · obtain rfl := Option.some.inj hrest
      exact .inr (.inr (List.mem_singleton.mp h))
  · obtain h | ⟨rest, hrest, -⟩ := h
    · exact .inr (.inl (IndexValue.mem_names_ofNames.mp h))
    · cases hrest

/-! ### an index that can be read -/

/-- No call leaves an index that cannot be read. -/
theorem read_next (hread : storage.index.read ≠ none) :
    (call.next storage).1.index.read ≠ none := by
  cases call with
  | writeEntry _ => exact hread
  | listName listed =>
    obtain ⟨hnext, -⟩ | ⟨hnext, -⟩ | ⟨names, hnext, -⟩ := next_listName storage listed
    all_goals
      rw [hnext]
      exact hread
  | discardIndex _ => simp [next, IndexValue.read]
  | writeIndex _ => simp [next, IndexValue.ofNames, IndexValue.read]
  | findListed _ =>
    simp only [next]
    split
    · exact hread
    · split <;> exact hread
  | discardUnread => simp [next, IndexValue.read]
  | writeIndexWithout _ _ => simp [next, IndexValue.ofNames, IndexValue.read]
  | removeEntry _ => exact hread

/-- Only an index that cannot be read is ever to be discarded. -/
theorem ne_discardIndex_of_next (hread : storage.index.read ≠ none)
    (hrest : (call.next storage).2 = some rest) :
    rest ≠ .discardIndex other := by
  cases call with
  | listName listed =>
    cases hindex : storage.index.read with
    | none => exact absurd hindex hread
    | some stored =>
      simp only [next, hindex] at hrest
      split at hrest
      · cases hrest
      · obtain rfl := Option.some.inj hrest
        simp
  | findListed _ =>
    simp only [next] at hrest
    split at hrest
    · obtain rfl := Option.some.inj hrest
      simp
    · split at hrest
      · obtain rfl := Option.some.inj hrest
        simp
      · cases hrest
  | writeEntry _ =>
    obtain rfl := Option.some.inj hrest
    simp
  | discardIndex _ =>
    obtain rfl := Option.some.inj hrest
    simp
  | writeIndexWithout _ _ =>
    obtain rfl := Option.some.inj hrest
    simp
  | writeIndex _ => cases hrest
  | discardUnread => cases hrest
  | removeEntry _ => cases hrest

end StoreCall

end SerialBroker
