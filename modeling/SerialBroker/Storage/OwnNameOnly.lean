import SerialBroker.Storage.Restored

/-!
# What a call of the store touches

Any of the storage operations of a call may throw, and the tab may crash before any of them.
Whatever the call, the names it was not asked about stay listed with their entries, and no name is
listed before its entry has been written - unless, in a save, the index could not be read, and
writing it then succeeds.
-/

namespace SerialBroker

inductive StorageCall
  | save (configuration : NormalizedConfiguration)
  | remove (name : JsString)
  | find (name : JsString)
  | load

namespace ConfigurationStore

open StoreProgram

variable (textDecoder : JsString → Option JsString)

def program : StorageCall → StoreProgram Unit
  | .save configuration => save textDecoder configuration
  | .remove name => remove name
  | .find name => do
    let _ ← find textDecoder name
  | .load => do
    let _ ← load textDecoder

/-- The name the call is asked about. -/
def ownName : StorageCall → Option JsString
  | .save configuration => some configuration.name.val
  | .remove name => some name
  | .find name => some name
  | .load => none

/-- The run of a call leaves alone what it was not asked about. -/
structure TouchesOwnNameOnly (call : StorageCall) (fates : List OperationFate)
    (texts : StoredTexts) : Prop where
  kept : ∀ other, ownName call ≠ some other → other ∈ (listed texts).names →
    (stored? textDecoder texts other).isSome = true →
    other ∈ (listed ((program textDecoder call).run fates texts).texts).names ∧
      ((program textDecoder call).run fates texts).texts (.entry other) = texts (.entry other)
  written : ∀ name ∈ (listed ((program textDecoder call).run fates texts).texts).names,
    name ∉ (listed texts).names →
    ∃ value, (.setItem (.entry name) value, .works) ∈
      ((program textDecoder call).run fates texts).trace

/-- How often a save reads before it writes. -/
def lookups (configuration : NormalizedConfiguration) (fates : List OperationFate)
    (texts : StoredTexts) : ℕ :=
  if configuration.device = .auto none then
    if fates.head? = some .works ∧ configuration.name.val ∈ (listed texts).names then 2 else 1
  else 0

/-- The entry is written, the index cannot be read after that, and it can be written - while another
name is listed that can be restored. -/
def LosesOthers (call : StorageCall) (fates : List OperationFate) (texts : StoredTexts) : Prop :=
  match call with
  | .save configuration =>
    configuration.remember = true ∧
      [.works, .throws, .works] <+: fates.drop (lookups configuration fates texts) ∧
      ∃ other ∈ (listed texts).names, other ≠ configuration.name.val ∧
        (stored? textDecoder texts other).isSome = true
  | _ => False

variable {textDecoder} {texts : StoredTexts} {fates : List OperationFate} {name : JsString}
  {names : List JsString}

/-- The texts with other entries only where there was nothing to restore. -/
def Spares (textDecoder : JsString → Option JsString) (texts texts' : StoredTexts) : Prop :=
  texts' .index = texts .index ∧ ∀ name, (stored? textDecoder texts name).isSome = true →
    texts' (.entry name) = texts (.entry name)

/-! ### reading the index -/

theorem run_readIndex_works (reportProblems : Bool) (fates : List OperationFate) {raw : JsonText}
    {elements : List JsTree} (hindex : texts .index = some raw)
    (hparse : raw.parse = some (.array elements)) :
    ∃ problems, (readIndex reportProblems).run (.works :: fates) texts =
      ⟨texts, fates, [(.getItem .index, .works)], problems, some (listed texts)⟩ := by
  have hlisted : listed texts = ⟨namesOf elements,
      (namesOf elements).length = elements.length⟩ := by
    rw [listed, hindex, Option.bind_some, hparse]
  rw [hlisted, readIndex, read_bind, run_getItem_works, hindex]
  simp only [hparse]
  by_cases hreport : ((namesOf elements).length ≠ elements.length && reportProblems) = true
  · simp only [hreport]
    exact ⟨_, by simp; rfl⟩
  · simp only [hreport]
    exact ⟨_, by simp; rfl⟩

theorem run_readIndex_throws {reportProblems : Bool} :
    (readIndex reportProblems).run (.throws :: fates) texts =
      ⟨texts, fates, [(.getItem .index, .throws)], [.unavailable "read"], some ⟨[], true⟩⟩ := by
  rw [readIndex, read_bind, run_getItem_throws]
  simp

/-- The index is an array. -/
def HasIndex (texts : StoredTexts) : Prop :=
  ∃ raw elements, texts .index = some raw ∧ raw.parse = some (.array elements)

/-- What is left after some of `remove`. -/
theorem run_remove (hindex : HasIndex texts) :
    ((remove name).run fates texts).texts = texts ∨
      ((remove name).run fates texts).texts .index = some (.stringify
        (.array (((listed texts).names.filter (· ≠ name)).map .string))) ∧
        ∀ other, other ≠ name → ((remove name).run fates texts).texts (.entry other) = texts
        (.entry other) := by
  obtain ⟨raw, elements, hraw, hparse⟩ := hindex
  rw [remove, run_bind]
  cases fates with
  | nil => exact .inl rfl
  | cons fate fates =>
    cases fate with
    | throws =>
      rw [run_readIndex_throws]
      exact .inl (by simp [CallRun.andThen])
    | works =>
      obtain ⟨problems, hread⟩ := run_readIndex_works false fates hraw hparse
      rw [hread]
      simp only [CallRun.andThen]
      split
      case isFalse => exact .inl (by simp)
      case isTrue =>
        simp only [writeIndex, write, setItem_bind]
        cases fates with
        | nil => exact .inl rfl
        | cons fate fates =>
          cases fate with
          | throws => exact .inl (by simp)
          | works =>
            right
            cases fates with
            | nil => simp [removeEntry]
            | cons fate fates =>
              cases fate with
              | works => simp +contextual [removeEntry]
              | throws => simp [removeEntry, tellProblem]

/-- What is left after some of `#listName`, of an index that can be read: the name is listed beside
the others, or it is not. -/
theorem run_listName_works (hindex : HasIndex texts) :
    ((listName name).run (.works :: fates) texts).texts = texts ∨
      ∃ names : List JsString, names.Nodup ∧ (∀ other ∈ (listed texts).names, other ∈ names) ∧
        (∀ other ∈ names, other ∈ (listed texts).names ∨ other = name) ∧
        ((listName name).run (.works :: fates) texts).texts =
          Function.update texts .index (some (.stringify (.array (names.map .string)))) := by
  obtain ⟨raw, elements, hraw, hparse⟩ := hindex
  obtain ⟨problems, hread⟩ := run_readIndex_works false fates hraw hparse
  rw [listName, run_bind, hread]
  simp only [CallRun.andThen]
  split
  case isTrue => exact .inl (by simp)
  case isFalse =>
    simp only [writeIndex, write, setItem_bind]
    cases fates with
    | nil => exact .inl rfl
    | cons fate fates =>
      cases fate with
      | throws => exact .inl (by simp)
      | works =>
        right
        refine ⟨if (listed texts).names.contains name then (listed texts).names
          else (listed texts).names ++ [name], (listing_spec (listed_nodup texts) name).1,
          ?_, ?_, by simp⟩
        · split <;> simp +contextual
        · split <;> simp +contextual

/-- An index that cannot be read is taken for an empty one. -/
theorem run_listName_throws :
    ((listName name).run (.throws :: fates) texts).texts =
      if fates.head? = some .works then Function.update texts .index
      (some (.stringify (.array [.string name]))) else texts := by
  rw [listName, run_bind, run_readIndex_throws]
  cases fates with
  | nil => simp [CallRun.andThen, writeIndex, write]
  | cons fate fates => cases fate <;> simp [CallRun.andThen, writeIndex, write]

/-- The reads of a save. -/
theorem run_keepingStoredResolution (configuration : NormalizedConfiguration)
    (hindex : HasIndex texts) :
    ((keepingStoredResolution textDecoder configuration).run fates texts).texts = texts ∧
      ((keepingStoredResolution textDecoder configuration).run fates texts).fates = fates.drop
      (lookups configuration fates texts) ∧
      (((keepingStoredResolution textDecoder configuration).run fates texts).result = none →
        fates.drop (lookups configuration fates texts) = []) := by
  obtain ⟨raw, elements, hraw, hparse⟩ := hindex
  rw [keepingStoredResolution, lookups]
  split
  case isFalse => simp
  case isTrue =>
    rw [run_bind, find, read_bind]
    cases fates with
    | nil => simp [CallRun.andThen]
    | cons fate fates =>
      cases fate with
      | throws => simp [CallRun.andThen]
      | works =>
        have hlisted : (listed texts).names = namesOf elements := by
          rw [listed, hraw, Option.bind_some, hparse]
        rw [run_getItem_works, hraw, hlisted]
        simp only [Option.getD_some, hparse, any_isSame]
        by_cases hmem : configuration.name.val ∈ namesOf elements
        · cases fates with
          | nil => simp [CallRun.andThen, hmem]
          | cons fate fates =>
            cases fate with
            | throws => simp [CallRun.andThen, hmem]
            | works =>
              cases hentry : texts (.entry configuration.name.val)
                <;> simp [CallRun.andThen, hmem, hentry]
        · simp [CallRun.andThen, hmem]

/-! ### load -/

theorem Spares.refl (texts : StoredTexts) : Spares textDecoder texts texts := ⟨rfl, fun _ _ => rfl⟩

theorem Spares.usable {texts' : StoredTexts} (h : Spares textDecoder texts texts')
    (husable : (stored? textDecoder texts name).isSome = true) :
    (stored? textDecoder texts' name).isSome = true := by
  rw [stored?, h.2 name husable]
  exact husable

theorem Spares.trans {texts' texts'' : StoredTexts} (h : Spares textDecoder texts texts')
    (h' : Spares textDecoder texts' texts'') :
    Spares textDecoder texts texts'' :=
  ⟨h'.1.trans h.1, fun name husable => (h'.2 name (h.usable husable)).trans (h.2 name husable)⟩

theorem spares_removed (hunusable : (stored? textDecoder texts name).isSome = false) :
    Spares textDecoder texts (Function.update texts (.entry name) none) := by
  refine ⟨Function.update_of_ne StorageKey.noConfusion .., fun other husable =>
    Function.update_of_ne ?_ ..⟩
  intro hsame
  rw [StorageKey.entry.inj hsame, hunusable] at husable
  cases husable

theorem run_discardEntry (reason : String)
    (hunusable : (stored? textDecoder texts name).isSome = false) :
    Spares textDecoder texts ((discardEntry name reason).run fates texts).texts := by
  rw [discardEntry, removeEntry, run_report]
  cases fates with
  | nil => exact .refl texts
  | cons fate fates =>
    cases fate with
    | throws => exact .refl texts
    | works => exact spares_removed hunusable

/-- An entry that cannot be used may be removed, and only such a name is discarded. -/
theorem run_restore (name : JsString) (fates : List OperationFate) (texts : StoredTexts) :
    Spares textDecoder texts ((restore textDecoder name).run fates texts).texts ∧
      (((restore textDecoder name).run fates texts).result = some .discarded →
        (stored? textDecoder texts name).isSome = false) := by
  rw [restore, read_bind]
  cases fates with
  | nil => exact ⟨.refl texts, fun h => by cases h⟩
  | cons fate fates =>
    cases fate with
    | throws => exact ⟨.refl texts, fun h => by simp [tellProblem] at h⟩
    | works =>
      rw [run_getItem_works]
      cases hentry : texts (.entry name) with
      | none =>
        have hnone : (stored? textDecoder texts name).isSome = false := by rw [stored?, hentry]; rfl
        simp only [pure_eq, run_done]
        exact ⟨.refl texts, fun _ => hnone⟩
      | some raw =>
        cases hparse : raw.parse with
        | none =>
          have hnone : (stored? textDecoder
            texts name).isSome = false := by rw [stored?, hentry, Option.bind_some, hparse]; rfl
          simp only [hparse, run_bind, pure_eq, texts_andThen_done]
          exact ⟨run_discardEntry _ hnone, fun _ => hnone⟩
        | some parsed =>
          cases hvalid : normalizeConfiguration textDecoder (.string name) parsed with
          | ok configuration =>
            simp only [hparse, hvalid, pure_eq, run_done]
            exact ⟨.refl texts, fun h => by cases h⟩
          | error problem =>
            have hnone : (stored? textDecoder texts name).isSome = false := by
              rw [stored?, hentry, Option.bind_some, hparse, Option.bind_some, hvalid]
              rfl
            simp only [hparse, hvalid, run_bind, pure_eq, texts_andThen_done]
            exact ⟨run_discardEntry _ hnone, fun _ => hnone⟩

theorem run_restoreAll (names : List JsString) (fates : List OperationFate) (texts : StoredTexts) :
    Spares textDecoder texts ((restoreAll textDecoder names).run fates texts).texts ∧
      ∀ restored kept, ((restoreAll textDecoder names).run fates texts).result = some
      (restored, kept) →
        kept.Sublist names ∧ ∀ name ∈ names, (stored? textDecoder texts name).isSome = true →
        name ∈ kept := by
  induction names generalizing fates texts with
  | nil =>
    refine ⟨?_, fun restored kept h => ?_⟩
    · rw [restoreAll, pure_eq, run_done]
      exact .refl texts
    · rw [restoreAll, pure_eq, run_done] at h
      obtain ⟨_, rfl⟩ := Prod.mk.inj (Option.some.inj h)
      exact ⟨List.Sublist.refl _, List.forall_mem_nil _⟩
  | cons name names ih =>
    obtain ⟨hspares, hdiscarded⟩ := @run_restore textDecoder name fates texts
    rw [restoreAll, run_bind, CallRun.andThen]
    cases houtcome : ((restore textDecoder name).run fates texts).result with
    | none => exact ⟨hspares, fun _ _ h => by cases h⟩
    | some outcome =>
      obtain ⟨hspares', hkept'⟩ :=
        ih ((restore textDecoder name).run fates texts).fates
        ((restore textDecoder name).run fates texts).texts
      simp only [run_bind, CallRun.andThen]
      cases hrest : ((restoreAll textDecoder names).run
          ((restore textDecoder name).run fates texts).fates
        ((restore textDecoder name).run fates texts).texts).result with
      | none => exact ⟨hspares.trans hspares', fun _ _ h => by cases h⟩
      | some pair =>
        obtain ⟨restored, kept⟩ := pair
        obtain ⟨hsublist, hmem⟩ := hkept' restored kept hrest
        refine ⟨by simpa using hspares.trans hspares', fun restored' kept' h => ?_⟩
        have hlater : ∀ other ∈ names, (stored? textDecoder texts other).isSome = true →
            other ∈ kept := fun other hother husable =>
          hmem other hother (hspares.usable husable)
        have hwith : kept' = name :: kept → kept'.Sublist (name :: names) ∧
            ∀ other ∈ name :: names, (stored? textDecoder texts other).isSome = true →
              other ∈ kept' := by
          rintro rfl
          refine ⟨hsublist.cons_cons name, fun other hother husable => ?_⟩
          obtain rfl | hother := List.mem_cons.mp hother
          · exact List.mem_cons_self
          · exact List.mem_cons_of_mem _ (hlater other hother husable)
        cases outcome with
        | restored configuration =>
          exact hwith (by simpa using congrArg (Option.map Prod.snd) h.symm)
        | unreadable => exact hwith (by simpa using congrArg (Option.map Prod.snd) h.symm)
        | discarded =>
          obtain rfl : kept' = kept := by simpa using congrArg (Option.map Prod.snd) h.symm
          refine ⟨hsublist.cons name, fun other hother husable => ?_⟩
          obtain rfl | hother := List.mem_cons.mp hother
          · rw [hdiscarded houtcome] at husable
            cases husable
          · exact hlater other hother husable

/-- What is left after some of `load`. -/
theorem run_load (hindex : HasIndex texts) :
    ∃ spared, Spares textDecoder texts spared ∧
      (((load textDecoder).run fates texts).texts = spared ∨
        ∃ kept : List JsString, kept.Sublist (listed texts).names ∧
          (∀ name ∈ (listed texts).names, (stored? textDecoder texts name).isSome = true →
            name ∈ kept) ∧
          ((load textDecoder).run fates texts).texts = Function.update spared .index
          (some (.stringify (.array (kept.map .string))))) := by
  obtain ⟨raw, elements, hraw, hparse⟩ := hindex
  rw [load, run_bind]
  cases fates with
  | nil => exact ⟨texts, .refl texts, .inl rfl⟩
  | cons fate fates =>
    cases fate with
    | throws =>
      rw [run_readIndex_throws]
      exact ⟨texts, .refl texts, .inl (by simp [CallRun.andThen, restoreAll])⟩
    | works =>
      obtain ⟨problems, hread⟩ := run_readIndex_works true fates hraw hparse
      obtain ⟨hspares, hkept⟩ := @run_restoreAll textDecoder (listed texts).names fates texts
      rw [hread]
      simp only [CallRun.andThen, run_bind]
      cases hrestored : ((restoreAll textDecoder (listed texts).names).run fates texts).result with
      | none => exact ⟨_, hspares, .inl rfl⟩
      | some pair =>
        obtain ⟨restored, kept⟩ := pair
        obtain ⟨hsublist, hmem⟩ := hkept restored kept hrestored
        refine ⟨_, hspares, ?_⟩
        simp only
        split
        case isFalse => exact .inl (by simp)
        case isTrue =>
          simp only [writeIndex, write]
          generalize ((restoreAll textDecoder (listed texts).names).run fates texts).fates = rest
          cases rest with
          | nil => exact .inl (by simp)
          | cons fate rest =>
            cases fate with
            | throws => exact .inl (by simp)
            | works => exact .inr ⟨kept, hsublist, hmem, by simp⟩

/-! ### every call -/

/-- A call that lists nothing new is judged by what it leaves. -/
theorem TouchesOwnNameOnly.of_listed {call : StorageCall} {t : StoredTexts}
    (ht : ((program textDecoder call).run fates texts).texts = t)
    (hkept : ∀ other, ownName call ≠ some other → other ∈ (listed texts).names →
      (stored? textDecoder texts other).isSome = true →
      other ∈ (listed t).names ∧ t (.entry other) = texts (.entry other))
    (hlisted : ∀ name ∈ (listed t).names, name ∈ (listed texts).names) :
    TouchesOwnNameOnly textDecoder call fates texts :=
  ⟨ht ▸ hkept, fun name hname hnew => absurd (hlisted name (ht ▸ hname)) hnew⟩

theorem touches_nothing {call : StorageCall}
    (ht : ((program textDecoder call).run fates texts).texts = texts) :
    TouchesOwnNameOnly textDecoder call fates texts :=
  .of_listed ht (fun _ _ hother _ => ⟨hother, rfl⟩) fun _ hname => hname

theorem touches_remove {call : StorageCall} (hindex : HasIndex texts)
    (hprogram : program textDecoder call = remove name)
    (hown : ownName call = some name) : TouchesOwnNameOnly textDecoder call fates texts := by
  obtain hsame | ⟨hwritten, hentries⟩ := @run_remove texts fates name hindex
  · exact touches_nothing (hprogram ▸ hsame)
  · have hlisted := listed_of_index hwritten ((listed_nodup texts).filter _)
    refine .of_listed (congrArg (fun p => (p.run fates texts).texts) hprogram)
      (fun other hother hmem _ => ?_) fun other hmem => ?_
    · have hne : other ≠ name := fun hsame => hother (hsame ▸ hown)
      exact ⟨by rw [hlisted]; simpa using ⟨hmem, hne⟩, hentries other hne⟩
    · rw [hlisted] at hmem
      exact List.mem_of_mem_filter hmem

theorem touches_load (hindex : HasIndex texts) :
    TouchesOwnNameOnly textDecoder .load fates texts := by
  have hprogram : ((program textDecoder .load).run fates texts).texts = ((load textDecoder).run
      fates texts).texts := by
    show ((load textDecoder >>= fun _ => done ()).run fates texts).texts = _
    rw [run_bind, texts_andThen_done]
  obtain ⟨spared, hspares, hsame | ⟨kept, hsublist, hmem, hwritten⟩⟩ :=
    @run_load textDecoder texts fates hindex
  · have hlisted : listed spared = listed texts := listed_congr hspares.1
    exact .of_listed (hprogram.trans hsame) (fun other _ hother husable =>
        ⟨hlisted ▸ hother, hspares.2 other husable⟩) fun _ hname =>
      hlisted ▸ hname
  · have hlisted : listed
        (Function.update spared .index (some (.stringify (.array (kept.map .string)))))
        = ⟨kept, true⟩ :=
      listed_of_index (Function.update_self ..) ((listed_nodup texts).sublist hsublist)
    refine .of_listed (hprogram.trans hwritten) (fun other _ hother husable => ⟨?_, ?_⟩)
      fun other hother => ?_
    · rw [hlisted]
      exact hmem other hother husable
    · exact (Function.update_of_ne StorageKey.noConfusion ..).trans (hspares.2 other husable)
    · rw [hlisted] at hother
      exact hsublist.subset hother

/-- Finding only reads. -/
theorem run_find (hindex : HasIndex texts) :
    ((find textDecoder name).run fates texts).texts = texts := by
  obtain ⟨raw, elements, hraw, hparse⟩ := hindex
  rw [find, read_bind]
  cases fates with
  | nil => rfl
  | cons fate fates =>
    cases fate with
    | throws => simp
    | works =>
      rw [run_getItem_works, hraw]
      simp only [Option.getD_some, hparse]
      split
      case isTrue => simp
      case isFalse =>
        rw [read_bind]
        cases fates with
        | nil => rfl
        | cons fate fates =>
          cases fate with
          | throws => simp
          | works => cases hentry : texts (.entry name) <;> simp [hentry]

theorem touches_find (hindex : HasIndex texts) :
    TouchesOwnNameOnly textDecoder (.find name) fates texts := by
  refine touches_nothing ?_
  show ((find textDecoder name >>= fun _ => done ()).run fates texts).texts = _
  rw [run_bind, texts_andThen_done, run_find hindex]

/-- The run of a save whose entry was written goes on with the index. -/
theorem run_save {configuration : NormalizedConfiguration} (hindex : HasIndex texts)
    (hremember : configuration.remember = true) :
    (((save textDecoder configuration).run fates texts).texts = texts ∧
        ∀ rest, fates.drop (lookups configuration fates texts) ≠ .works :: rest) ∨
      ∃ rest value, fates.drop (lookups configuration fates texts) = .works :: rest ∧
        ((save textDecoder configuration).run fates texts).texts =
          ((listName configuration.name.val).run rest
            (Function.update texts (.entry configuration.name.val) (some value))).texts ∧
        (.setItem (.entry configuration.name.val) value, .works) ∈
          ((save textDecoder configuration).run fates texts).trace := by
  obtain ⟨htexts, hfates, hcrashed⟩ :=
    @run_keepingStoredResolution textDecoder texts fates configuration hindex
  rw [save, if_pos hremember, run_bind, CallRun.andThen]
  cases hkept : ((keepingStoredResolution textDecoder configuration).run fates texts).result with
  | none => exact .inl ⟨htexts, fun rest hrest => by rw [hcrashed hkept] at hrest; cases hrest⟩
  | some kept =>
    simp only [htexts, hfates, run_bind, write]
    cases hdrop : fates.drop (lookups configuration fates texts) with
    | nil => exact .inl ⟨rfl, fun rest hrest => by cases hrest⟩
    | cons fate rest =>
      cases fate with
      | throws => exact .inl ⟨by simp [CallRun.andThen], fun rest hrest => by cases hrest⟩
      | works =>
        exact .inr ⟨rest, .stringify (toStorable kept),
          rfl, by simp [CallRun.andThen], by simp [CallRun.andThen]⟩

/-- A save whose index could be read, or not be written, leaves the other names alone. -/
theorem touches_save {configuration : NormalizedConfiguration} (hindex : HasIndex texts)
    (hremember : configuration.remember = true)
    (hsafe : ¬[.works, .throws, .works] <+: fates.drop (lookups configuration fates texts)) :
    TouchesOwnNameOnly textDecoder (.save configuration) fates texts := by
  obtain ⟨hsame, _⟩ | ⟨rest, value, hdrop, htexts, htrace⟩ :=
    @run_save textDecoder texts fates configuration hindex hremember
  · exact touches_nothing hsame
  · have hindex' : Function.update texts (.entry configuration.name.val) (some value)
        .index = texts .index :=
      Function.update_of_ne StorageKey.noConfusion ..
    have hlisted := listed_congr hindex'
    have hentry : ∀ other, ownName (.save configuration) ≠ some other →
        Function.update texts (.entry configuration.name.val) (some value) (.entry other) = texts
          (.entry other) := fun other hother =>
      Function.update_of_ne (fun hsame => hother (by rw [StorageKey.entry.inj hsame]; rfl)) ..
    have hunlisted : ((listName configuration.name.val).run rest
        (Function.update texts (.entry configuration.name.val) (some value))).texts =
        Function.update texts (.entry configuration.name.val) (some value) →
          TouchesOwnNameOnly textDecoder (.save configuration) fates texts :=
      fun hsame => .of_listed (htexts.trans hsame) (fun other hown hother _ =>
          ⟨hlisted ▸ hother, hentry other hown⟩) fun _ hname =>
        hlisted ▸ hname
    cases rest with
    | nil => exact hunlisted (by rw [listName, run_bind]; rfl)
    | cons fate rest =>
      cases fate with
      | throws =>
        refine hunlisted ?_
        rw [run_listName_throws, if_neg]
        intro hworks
        cases rest with
        | nil => cases hworks
        | cons fate rest =>
          obtain rfl := Option.some.inj hworks
          exact hsafe (hdrop ▸ ⟨rest, rfl⟩)
      | works =>
        have hasIndex : HasIndex
            (Function.update texts (.entry configuration.name.val) (some value)) := by
          rw [HasIndex, hindex']
          exact hindex
        obtain hsame | ⟨names, hnodup, hkept, hnew, hwritten⟩ :=
          @run_listName_works _ rest configuration.name.val hasIndex
        · exact hunlisted hsame
        · have hafter := @listed_of_index
              ((program textDecoder (.save configuration)).run fates texts).texts names
            (by rw [program, htexts, hwritten]; exact Function.update_self ..) hnodup
          rw [hlisted] at hkept hnew
          refine ⟨fun other hown hother _ => ⟨hafter ▸ hkept other hother, ?_⟩,
            fun name hname hmissing => ?_⟩
          · rw [program, htexts, hwritten]
            exact (Function.update_of_ne StorageKey.noConfusion ..).trans (hentry other hown)
          · rw [hafter] at hname
            obtain rfl := (hnew name hname).resolve_left hmissing
            exact ⟨value, htrace⟩

/-- After a save that could write the index but not read it, the index lists one name. -/
theorem lost_index {configuration : NormalizedConfiguration} (hindex : HasIndex texts)
    (hremember : configuration.remember = true)
    (hlost : [.works, .throws, .works] <+: fates.drop (lookups configuration fates texts)) :
    ((program textDecoder (.save configuration)).run fates texts).texts .index =
      some (.stringify (.array ([configuration.name.val].map .string))) := by
  obtain ⟨after, hafter⟩ := hlost
  obtain ⟨_, hcrashed⟩ | ⟨rest, value, hdrop, htexts, _⟩ :=
    @run_save textDecoder texts fates configuration hindex hremember
  · exact absurd hafter.symm (hcrashed _)
  · obtain rfl : rest = .throws :: .works :: after := by
      rw [hdrop] at hafter
      exact (List.cons.inj hafter).2.symm
    rw [program, htexts, run_listName_throws, List.head?_cons, if_pos rfl]
    exact Function.update_self ..

theorem LosesOthers.not_touches {call : StorageCall} (h : LosesOthers textDecoder call fates texts)
    (hindex : HasIndex texts) :
    ¬TouchesOwnNameOnly textDecoder call fates texts := by
  intro htouches
  cases call with
  | save configuration =>
    obtain ⟨hremember, hdrop, other, hmem, hne, husable⟩ := h
    obtain ⟨hkept, _⟩ :=
      htouches.kept other (fun hown => hne (Option.some.inj hown).symm) hmem husable
    rw [listed_of_index (lost_index hindex hremember hdrop) (List.nodup_singleton _)] at hkept
    exact hne (List.mem_singleton.mp hkept)
  | _ => exact h

/-- **The store touches only the name it is asked about**, unless a save takes an index it cannot
read for an empty one. -/
theorem touchesOwnNameOnly_iff (call : StorageCall) (fates : List OperationFate)
    (texts : StoredTexts) (hindex : HasIndex texts) :
    TouchesOwnNameOnly textDecoder call fates texts ↔
      ¬LosesOthers textDecoder call fates texts := by
  cases call with
  | remove name => exact iff_of_true (touches_remove hindex rfl rfl) id
  | find name => exact iff_of_true (touches_find hindex) id
  | load => exact iff_of_true (touches_load hindex) id
  | save configuration =>
    by_cases hremember : configuration.remember = true
    · refine ⟨fun htouches hloses => hloses.not_touches hindex htouches, fun hsafe => ?_⟩
      by_cases hlost : [.works, .throws, .works] <+: fates.drop (lookups configuration fates texts)
      · refine ⟨fun other hown hmem husable => ?_, fun name hname _ => ?_⟩
        · exact absurd ⟨hremember, hlost, other, hmem, fun hsame => hown (congrArg some hsame.symm),
            husable⟩ hsafe
        · rw [listed_of_index (lost_index hindex hremember hlost) (List.nodup_singleton _)] at hname
          obtain rfl := List.mem_singleton.mp hname
          obtain ⟨after, hafter⟩ := hlost
          obtain ⟨_, hcrashed⟩ | ⟨_, value, _, _, htrace⟩ :=
            @run_save textDecoder texts fates configuration hindex hremember
          · exact absurd hafter.symm (hcrashed _)
          · exact ⟨value, htrace⟩
      · exact touches_save hindex hremember hlost
    · refine iff_of_true (@touches_remove textDecoder texts fates configuration.name.val _ hindex
        ?_ rfl) fun hloses => hremember hloses.1
      rw [program, save, if_neg hremember]

/-- What a tab finds that remembered another configuration before. -/
def readerSetup : NormalizedConfiguration :=
  { scaleSetup with name := ⟨js "reader", by decide +kernel⟩ }

def readerStored : StoredTexts :=
  Function.update (Function.update (fun _ => none) (.entry (js "reader"))
      (some (.stringify (toStorable readerSetup)))) .index
    (some (.stringify (.array ([js "reader"].map .string))))

theorem listed_readerStored : listed readerStored = ⟨[js "reader"], true⟩ :=
  listed_of_index (Function.update_self ..) (List.nodup_singleton _)

theorem hasIndex_readerStored : HasIndex readerStored := ⟨_, _, Function.update_self .., rfl⟩

/-- A save of another name whose operations all work leaves the reader alone. -/
theorem touchesOwnNameOnly_works :
    TouchesOwnNameOnly utf8Only (.save scaleSetup)
    [.works, .works, .works, .works] readerStored := by
  refine (touchesOwnNameOnly_iff _ _ _ hasIndex_readerStored).mpr fun hloses => ?_
  have hlookups : lookups scaleSetup [.works, .works, .works, .works] readerStored = 1 := by
    rw [lookups, listed_readerStored]
    decide
  obtain ⟨_, hdrop, _⟩ := hloses
  rw [hlookups] at hdrop
  exact absurd hdrop (by decide)

/-- After the entry is written the index cannot be read, and then it is written: the reader is not
listed any more. -/
theorem not_touchesOwnNameOnly :
    ¬TouchesOwnNameOnly utf8Only (.save scaleSetup)
    [.works, .works, .throws, .works] readerStored := by
  have hlookups : lookups scaleSetup [.works, .works, .throws, .works] readerStored = 1 := by
    rw [lookups, listed_readerStored]
    decide
  have husable : (stored? utf8Only readerStored (js "reader")).isSome = true := by
    have hentry : readerStored (.entry (js "reader")) = some (.stringify
        (toStorable readerSetup)) :=
      (Function.update_of_ne StorageKey.noConfusion ..).trans (Function.update_self ..)
    have hread : normalizeConfiguration utf8Only (.string (js "reader"))
        (toStorable readerSetup).throughJson = .ok readerSetup :=
      normalizeConfiguration_stored (c := readerSetup) (by decide) rfl rfl
    rw [stored?, hentry]
    simp [hread, Except.toOption]
  refine LosesOthers.not_touches ⟨rfl, ?_, js "reader", ?_, by decide, husable⟩
    hasIndex_readerStored
  · rw [hlookups]
    exact List.prefix_refl _
  · rw [listed_readerStored]
    exact List.mem_singleton_self _

end ConfigurationStore

end SerialBroker
