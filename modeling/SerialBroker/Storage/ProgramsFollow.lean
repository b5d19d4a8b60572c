import SerialBroker.Storage.ConfigurationStore
import SerialBroker.Storage.Restored

/-!
# The programs of the store do what its calls do

There are two accounts of the store: its calls by the storage operation they do next, for what goes
on between several tabs, and its programs with everything they read, write and report. With working
storage a program does what its call does, one storage operation at a time, whatever the other tabs
have made of the storage in between. Only what a save reads before it writes is not an operation of
the call.
-/

namespace SerialBroker

open ConfigurationStore

/-- What the calls of the store see of the index. -/
def IndexValue.ofText : Option JsonText → IndexValue JsString
  | none => .absent
  | some raw =>
    match raw.parse with
    | some (.array elements) => .list (elements.map text?)
    | _ => .unreadable

/-- What the calls of the store see of the stored texts. -/
def KeyValueStorage.ofTexts (texts : StoredTexts) : KeyValueStorage JsString where
  index := .ofText (texts .index)
  hasEntry := fun name => (texts (.entry name)).isSome

namespace StoreProgram

variable {α β : Type}

/-- Each operation of the program is the one its call does next, or reads what is no matter to the
call. -/
def Follows : StoreProgram α → Option (StoreCall JsString) → Prop
  | done _, call => call = none
  | report _ next, call => next.Follows call
  | getItem key next, call =>
    (∀ read, (next (some read)).Follows call) ∨
      ∃ doing, call = some doing ∧ ∀ texts : StoredTexts,
        (doing.next (.ofTexts texts)).1 = .ofTexts texts ∧
          (next (some (texts key))).Follows (doing.next (.ofTexts texts)).2
  | setItem key value next, call =>
    ∃ doing, call = some doing ∧ ∀ texts : StoredTexts,
      (doing.next (.ofTexts texts)).1 = .ofTexts (Function.update texts key (some value)) ∧
        (next true).Follows (doing.next (.ofTexts texts)).2
  | removeItem key next, call =>
    ∃ doing, call = some doing ∧ ∀ texts : StoredTexts,
      (doing.next (.ofTexts texts)).1 = .ofTexts (Function.update texts key none) ∧
        (next true).Follows (doing.next (.ofTexts texts)).2

/-- The program reads and does nothing else. -/
def OnlyReads : StoreProgram α → Prop
  | done _ => True
  | report _ _ => False
  | getItem _ next => ∀ read, (next (some read)).OnlyReads
  | setItem _ _ _ => False
  | removeItem _ _ => False

theorem OnlyReads.bind {p : StoreProgram α} (hp : p.OnlyReads) {f : α → StoreProgram β}
    (hf : ∀ a, (f a).OnlyReads) : (p >>= f).OnlyReads := by
  show (p.bind f).OnlyReads
  induction p with
  | done a => exact hf a
  | report problem next ih => exact hp.elim
  | getItem key next ih => exact fun read => ih (some read) (hp read)
  | setItem key value next ih => exact hp.elim
  | removeItem key next ih => exact hp.elim

theorem OnlyReads.follows {p : StoreProgram α} (hp : p.OnlyReads) {f : α → StoreProgram β}
    {call : Option (StoreCall JsString)} (hf : ∀ a, (f a).Follows call) :
    (p >>= f).Follows call := by
  show (p.bind f).Follows call
  induction p with
  | done a => exact hf a
  | report problem next ih => exact hp.elim
  | getItem key next ih => exact .inl fun read => ih (some read) (hp read)
  | setItem key value next ih => exact hp.elim
  | removeItem key next ih => exact hp.elim

end StoreProgram

namespace ConfigurationStore

open StoreProgram

variable {α : Type} {texts : StoredTexts} {name : JsString}

/-! ### what the calls see -/

theorem reduceOption_text? (elements : List JsTree) :
    (elements.map text?).reduceOption = elements.filterMap text? := by
  rw [List.reduceOption, List.filterMap_map]
  rfl

theorem read_ofText {raw : JsonText} {elements : List JsTree}
    (hparse : raw.parse = some (.array elements)) :
    (IndexValue.ofText (some raw)).read =
      some ⟨namesOf elements, (namesOf elements).length == elements.length⟩ := by
  simp only [IndexValue.ofText, hparse, IndexValue.read, reduceOption_text?,
    List.length_map, namesOf]
  rw [lawful_beq_subsingleton (instBEqOfDecidableEq (α := JsString)) List.instBEq]

theorem ofText_names (names : List JsString) :
    IndexValue.ofText (some (.stringify (.array (names.map .string)))) = .ofNames names := by
  simp only [IndexValue.ofText, JsonText.parse_stringify, JsTree.throughJson,
    JsTree.elementsThroughJson_strings, IndexValue.ofNames, List.map_map]
  rfl

theorem ofTexts_writeIndex (texts : StoredTexts) (names : List JsString) :
    KeyValueStorage.ofTexts
        (Function.update texts .index (some (.stringify (.array (names.map .string))))) =
      (KeyValueStorage.ofTexts texts).setIndex names := by
  simp only [KeyValueStorage.ofTexts, KeyValueStorage.setIndex, Function.update_self, ofText_names]
  rfl

theorem ofTexts_discardIndex (texts : StoredTexts) :
    KeyValueStorage.ofTexts (Function.update texts .index none) =
      (KeyValueStorage.ofTexts texts).removeIndex := by
  simp only [KeyValueStorage.ofTexts, KeyValueStorage.removeIndex, Function.update_self,
    IndexValue.ofText]
  rfl

theorem ofTexts_updateEntry (texts : StoredTexts) (name : JsString) (value : Option JsonText) :
    KeyValueStorage.ofTexts (Function.update texts (.entry name) value) =
      { KeyValueStorage.ofTexts texts with
        hasEntry := Function.update
          (KeyValueStorage.ofTexts texts).hasEntry name value.isSome } := by
  have hentry : ∀ other, (Function.update texts (.entry name) value (.entry other)).isSome =
      Function.update (KeyValueStorage.ofTexts texts).hasEntry name value.isSome other := by
    intro other
    by_cases hother : other = name
    · subst hother
      simp
    · rw [Function.update_of_ne (by simpa using hother), Function.update_of_ne hother]
      rfl
  simp only [KeyValueStorage.ofTexts, KeyValueStorage.mk.injEq]
  exact ⟨by rw [Function.update_of_ne (by simp)], funext hentry⟩

theorem read_ofTexts {raw : JsonText} {elements : List JsTree} (hindex : texts .index = some raw)
    (hparse : raw.parse = some (.array elements)) :
    (KeyValueStorage.ofTexts texts).index.read =
      some ⟨namesOf elements, (namesOf elements).length == elements.length⟩ := by
  rw [KeyValueStorage.ofTexts, hindex, read_ofText hparse]

theorem unread_ofTexts {raw : JsonText} (hindex : texts .index = some raw)
    (hparse : ∀ elements, raw.parse ≠ some (.array elements)) :
    (KeyValueStorage.ofTexts texts).index.read = none := by
  rw [KeyValueStorage.ofTexts, hindex]
  cases hvalue : raw.parse with
  | none =>
    simp only [IndexValue.ofText, hvalue]
    rfl
  | some value =>
    cases value with
    | array elements => exact absurd hvalue (hparse elements)
    | _ =>
      simp only [IndexValue.ofText, hvalue]
      rfl

/-! ### the programs -/

/-- The index is read, and discarded where that cannot be done. -/
theorem follows_readIndex {f : ListedNames → StoreProgram α} {doing : StoreCall JsString}
    (hreads : ∀ storage, (doing.next storage).1 = storage)
    (hread : ∀ storage stored, storage.index.read = some stored →
      (f ⟨stored.names, stored.isIntact⟩).Follows (doing.next storage).2)
    (hunread : ∀ storage : KeyValueStorage JsString, storage.index.read = none →
      ∃ rest, (doing.next storage).2 = some rest ∧
        (∀ later, (rest.next later).1 = later.removeIndex) ∧
        ∀ later, (f ⟨[], true⟩).Follows (rest.next later).2) :
    (readIndex false >>= f).Follows (some doing) := by
  have hdiscard : ∀ (texts : StoredTexts) (reason : String),
      (KeyValueStorage.ofTexts texts).index.read = none →
      ((discardIndex reason false >>= fun _ => pure (⟨[], true⟩ : ListedNames)) >>= f).Follows
        (doing.next (.ofTexts texts)).2 := by
    intro texts reason hnone
    obtain ⟨rest, hrest, hremoves, hthen⟩ := hunread _ hnone
    rw [hrest]
    exact ⟨rest, rfl, fun later => ⟨by rw [hremoves, ofTexts_discardIndex], hthen _⟩⟩
  rw [readIndex, read_bind, getItem_bind]
  refine .inr ⟨doing, rfl, fun texts => ⟨hreads _, ?_⟩⟩
  cases hindex : texts .index with
  | none => exact hread (.ofTexts texts) ⟨[], true⟩ (by rw [KeyValueStorage.ofTexts, hindex]; rfl)
  | some raw =>
    cases hparse : raw.parse with
    | none =>
      simp only [hparse]
      exact hdiscard texts _ (unread_ofTexts hindex (by simp [hparse]))
    | some parsed =>
      cases parsed with
      | array elements =>
        have hstored := hread (.ofTexts texts) _ (read_ofTexts hindex hparse)
        have hintact : ((namesOf elements).length == elements.length) =
            decide ((namesOf elements).length = elements.length) := rfl
        simp only [hparse, Bool.and_false, Bool.false_eq_true, if_false, ← hintact]
        exact hstored
      | _ =>
        simp only [hparse]
        exact hdiscard texts _ (unread_ofTexts hindex (by simp [hparse]))

theorem follows_writeIndex {f : Bool → StoreProgram α} {doing : StoreCall JsString}
    {names : List JsString} (hwrites : ∀ storage, (doing.next storage).1 = storage.setIndex names)
    (hthen : ∀ storage, (f true).Follows (doing.next storage).2) :
    (writeIndex names >>= f).Follows (some doing) :=
  ⟨doing, rfl, fun texts => ⟨by rw [hwrites, ofTexts_writeIndex], hthen _⟩⟩

theorem listName_follows (name : JsString) : (listName name).Follows (some (.listName name)) := by
  refine follows_readIndex (fun storage => ?_) (fun storage stored hread => ?_)
    fun storage hread => ?_
  · obtain ⟨hnext, -⟩ | ⟨hnext, -⟩ | ⟨names, hnext, -⟩ := StoreCall.next_listName storage name
    all_goals rw [hnext]
  · obtain ⟨names, isIntact⟩ := stored
    by_cases hdone : isIntact = true ∧ name ∈ names
    · simp [StoreCall.next, hread, hdone, Follows]
    · have hrest : ((StoreCall.listName name).next storage).2 =
          some (.writeIndex (if name ∈ names then names else names ++ [name])) := by
        simp [StoreCall.next, hread, hdone]
      rw [hrest]
      simp only [List.contains_eq_mem, Bool.and_eq_true, decide_eq_true_eq, hdone, if_false]
      exact follows_writeIndex (f := fun _ => done ()) (fun _ => rfl) fun _ => rfl
  · refine ⟨.discardIndex name, by simp only [StoreCall.next, hread], fun _ => rfl, fun later => ?_⟩
    exact follows_writeIndex (f := fun _ => done ()) (fun _ => rfl) fun _ => rfl

theorem remove_follows (name : JsString) : (remove name).Follows (some (.remove name)) := by
  refine follows_readIndex (fun storage => ?_) (fun storage stored hread => ?_)
    fun storage hread => ?_
  · simp only [StoreCall.remove, StoreCall.next]
    split
    · rfl
    · split <;> rfl
  · obtain ⟨names, isIntact⟩ := stored
    by_cases hlisted : name ∈ names
    · have hrest : ((StoreCall.remove name).next storage).2 =
          some (.writeIndexWithout name (names.filter (· ≠ name))) := by
        simp [StoreCall.remove, StoreCall.next, hread, hlisted]
      rw [hrest]
      simp only [List.contains_eq_mem, decide_eq_true_eq, hlisted, if_true]
      refine follows_writeIndex (fun _ => rfl) fun storage =>
        ⟨.removeEntry name, rfl, fun texts => ?_⟩
      exact ⟨by rw [ofTexts_updateEntry]; rfl, rfl⟩
    · simp [StoreCall.remove, StoreCall.next, hread, hlisted, Follows]
  · exact ⟨.discardUnread, by simp only [StoreCall.remove, StoreCall.next, hread], fun _ => rfl,
      fun later => rfl⟩

theorem find_onlyReads (textDecoder : JsString → Option JsString) (name : JsString) :
    (find textDecoder name).OnlyReads := by
  rw [find, read_bind]
  intro index
  dsimp only
  split
  · next elements _ =>
    cases hlisted : elements.any fun element => element.isSame (.string name) with
    | false => exact trivial
    | true =>
      intro read
      cases read with
      | none => exact trivial
      | some raw => exact trivial
  · exact trivial

theorem keepingStoredResolution_onlyReads (textDecoder : JsString → Option JsString)
    (configuration : NormalizedConfiguration) :
    (keepingStoredResolution textDecoder configuration).OnlyReads := by
  rw [keepingStoredResolution]
  split
  · exact (find_onlyReads textDecoder configuration.name.val).bind fun _ => trivial
  · exact trivial

/-- **A save of a configuration to be remembered does the operations of `StoreCall.save`.** -/
theorem save_follows (textDecoder : JsString → Option JsString)
    {configuration : NormalizedConfiguration} (hremember : configuration.remember = true) :
    (save textDecoder configuration).Follows (some (.save configuration.name.val)) := by
  rw [save, if_pos hremember]
  refine (keepingStoredResolution_onlyReads textDecoder configuration).follows fun kept => ?_
  refine ⟨_, rfl, fun texts => ⟨by rw [ofTexts_updateEntry]; rfl, ?_⟩⟩
  exact listName_follows configuration.name.val

end ConfigurationStore

end SerialBroker
