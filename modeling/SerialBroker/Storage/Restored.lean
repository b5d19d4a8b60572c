import Mathlib.Data.List.Nodup
import SerialBroker.Storage.StoreCalls

/-!
# What is stored and what is restored

With working storage: whatever is stored, `load` returns what is usable of it, in the order of the
index, leaves an index of exactly these names, and agrees with `find`. A saved configuration is
found again as it was, however it was stored before.
-/

namespace SerialBroker.ConfigurationStore

open StoreProgram

variable (textDecoder : JsString → Option JsString)

/-- What the stored index lists. -/
def listed (texts : StoredTexts) : ListedNames :=
  match (texts .index).bind JsonText.parse with
  | some (.array elements) => ⟨namesOf elements, (namesOf elements).length = elements.length⟩
  | _ => ⟨[], true⟩

/-- The configuration under an entry, if there is one that can be used. -/
def stored? (texts : StoredTexts) (name : JsString) : Option NormalizedConfiguration :=
  ((texts (.entry name)).bind JsonText.parse).bind fun parsed =>
    (normalizeConfiguration textDecoder (.string name) parsed).toOption

/-- The storage without an index that cannot be read. -/
def withoutUnreadable (texts : StoredTexts) : StoredTexts :=
  match texts .index with
  | none => texts
  | some raw =>
    match raw.parse with
    | some (.array _) => texts
    | _ => Function.update texts .index none

variable {textDecoder} {texts : StoredTexts} {name : JsString} {names : List JsString}

/-! ### names -/

theorem mem_namesOf {elements : List JsTree} :
    name ∈ namesOf elements ↔ JsTree.string name ∈ elements := by
  have htext : ∀ element : JsTree, text? element = some name ↔ element = .string name := by
    intro element
    cases element <;> simp [text?]
  rw [namesOf, List.mem_eraseDups, List.mem_filterMap]
  constructor
  · rintro ⟨element, hmem, helement⟩
    exact (htext element).mp helement ▸ hmem
  · exact fun hmem => ⟨_, hmem, rfl⟩

/-- `index.includes(name)`. -/
theorem any_isSame (elements : List JsTree) :
    (elements.any fun element => element.isSame (.string name)) = decide
    (name ∈ namesOf elements) := by
  rw [Bool.eq_iff_iff, decide_eq_true_iff, mem_namesOf, List.any_eq_true]
  constructor
  · rintro ⟨element, hmem, hsame⟩
    cases element with
    | string s =>
      obtain rfl : s = name := by simpa [JsTree.isSame] using hsame
      exact hmem
    | _ => cases hsame
  · exact fun hmem => ⟨_, hmem, by simp [JsTree.isSame]⟩

theorem nodup_eraseDups (l : List JsString) : l.eraseDups.Nodup := by
  induction hlength : l.length using Nat.strongRecOn generalizing l with
  | ind n ih =>
    cases l with
    | nil => exact List.nodup_nil
    | cons name l =>
      rw [List.eraseDups_cons, List.nodup_cons, List.mem_eraseDups, List.mem_filter]
      refine ⟨by simp, ih _ ?_ _ rfl⟩
      calc (l.filter fun other => !other == name).length
          ≤ l.length := List.length_filter_le ..
        _ < n := by rw [← hlength]; exact Nat.lt_succ_self _

theorem eraseDups_eq_self {l : List JsString} (h : l.Nodup) : l.eraseDups = l := by
  induction l with
  | nil => rfl
  | cons name l ih =>
    obtain ⟨hnew, hnodup⟩ := List.nodup_cons.mp h
    have hfilter : (l.filter fun other => !other == name) = l := by
      apply List.filter_eq_self.mpr
      intro other hother
      have hne : other ≠ name := by
        rintro rfl
        exact hnew hother
      simpa using hne
    rw [List.eraseDups_cons, hfilter, ih hnodup]

theorem listed_nodup (texts : StoredTexts) : (listed texts).names.Nodup := by
  rw [listed]
  split
  · exact nodup_eraseDups _
  · exact List.nodup_nil

theorem namesOf_strings (hnodup : names.Nodup) : namesOf (names.map JsTree.string) = names := by
  have htexts : (names.map JsTree.string).filterMap text? = names := by
    rw [List.filterMap_map]
    exact List.filterMap_some
  rw [namesOf, htexts, eraseDups_eq_self hnodup]

/-- An index of names as `#writeIndex` writes it. -/
theorem listed_of_index (hindex : texts .index = some (.stringify (.array (names.map .string))))
    (hnodup : names.Nodup) :
    listed texts = ⟨names, true⟩ := by
  have hparse : (texts .index).bind JsonText.parse = some (.array (names.map .string)) := by
    rw [hindex]
    show some (JsTree.throughJson (.array (names.map .string))) = _
    rw [JsTree.throughJson, JsTree.elementsThroughJson_strings]
  rw [listed, hparse]
  simp only [namesOf_strings hnodup, List.length_map, decide_true]

/-! ### reading the index -/

theorem perform_readIndex (reportProblems : Bool) (texts : StoredTexts) :
    ((readIndex reportProblems).perform texts).1 = withoutUnreadable texts ∧
      ((readIndex reportProblems).perform texts).2.2 = listed texts := by
  rw [readIndex, read_bind, perform_getItem, withoutUnreadable, listed]
  cases hindex : texts .index with
  | none => exact ⟨rfl, rfl⟩
  | some raw =>
    cases hparse : raw.parse with
    | none => cases reportProblems <;> simp [hparse, discardIndex, tellProblem]
    | some value =>
      cases value with
      | array elements =>
        cases reportProblems <;> by_cases hlength :
          (namesOf elements).length = elements.length <;> simp [hparse, hlength, tellProblem]
      | _ => cases reportProblems <;> simp [hparse, discardIndex, tellProblem]

theorem withoutUnreadable_entry (texts : StoredTexts) (name : JsString) :
    withoutUnreadable texts (.entry name) = texts (.entry name) := by
  rw [withoutUnreadable]
  cases texts .index with
  | none => rfl
  | some raw =>
    have hremoved : Function.update texts .index none (.entry name) = texts (.entry name) :=
      Function.update_of_ne StorageKey.noConfusion ..
    cases hparse : raw.parse with
    | none => simp only [hparse, hremoved]
    | some value => cases value <;> simp only [hparse, hremoved]

/-! ### restoring the entries -/

/-- The storage without an entry that cannot be used. -/
def discarded (textDecoder : JsString → Option JsString) (texts : StoredTexts) (name : JsString) :
    StoredTexts :=
  if (stored? textDecoder texts name).isNone then Function.update texts (.entry name) none
  else texts

theorem perform_restore (name : JsString) (texts : StoredTexts) :
    ((restore textDecoder name).perform texts).1 = discarded textDecoder texts name ∧
      ((restore textDecoder name).perform texts).2.2 =
        (match stored? textDecoder texts name with
          | some configuration => EntryOutcome.restored configuration
          | none => .discarded) ∧
      ((stored? textDecoder texts name).isSome →
        ((restore textDecoder name).perform texts).2.1 = []) := by
  rw [restore, read_bind, perform_getItem, discarded, stored?]
  cases hentry : texts (.entry name) with
  | none =>
    have hsame : Function.update texts (.entry name) none = texts := by
      rw [← hentry]
      exact Function.update_eq_self ..
    simp [hsame]
  | some raw =>
    cases hparse : raw.parse with
    | none => simp [hparse, discardEntry, removeEntry]
    | some parsed =>
      cases hvalid : normalizeConfiguration textDecoder (.string name) parsed with
      | ok configuration => simp [hparse, hvalid, Except.toOption]
      | error problem => simp [hparse, hvalid, Except.toOption, discardEntry, removeEntry]

/-- What can be used stays. -/
theorem stored?_discarded (name other : JsString) (texts : StoredTexts) :
    stored? textDecoder
    (discarded textDecoder texts name) other = stored? textDecoder texts other := by
  rw [discarded]
  split
  case isTrue hnone =>
    by_cases heq : other = name
    · rw [heq, Option.isNone_iff_eq_none.mp hnone, stored?, Function.update_self]
      rfl
    · rw [stored?, Function.update_of_ne (by simpa using heq)]
      rfl
  case isFalse => rfl

theorem discarded_index (name : JsString) (texts : StoredTexts) :
    discarded textDecoder texts name .index = texts .index := by
  rw [discarded]
  split
  · exact Function.update_of_ne StorageKey.noConfusion ..
  · rfl

theorem perform_restoreAll (names : List JsString) (texts : StoredTexts) :
    ((restoreAll textDecoder names).perform texts).1 = names.foldl (discarded textDecoder) texts ∧
      ((restoreAll textDecoder names).perform texts).2.2 =
        (names.filterMap (stored? textDecoder texts), names.filter fun name =>
          (stored? textDecoder texts name).isSome) ∧
      ((∀ name ∈ names, (stored? textDecoder texts name).isSome) →
        ((restoreAll textDecoder names).perform texts).2.1 = []) := by
  induction names generalizing texts with
  | nil => exact ⟨rfl, rfl, fun _ => rfl⟩
  | cons name names ih =>
    obtain ⟨htexts, houtcome, hquiet⟩ := @perform_restore textDecoder name texts
    obtain ⟨htexts', hresult', hquiet'⟩ := ih (discarded textDecoder texts name)
    simp only [stored?_discarded] at hresult' hquiet'
    have hfst : ((restoreAll textDecoder (name :: names)).perform texts).1 = (name :: names).foldl
        (discarded textDecoder) texts := by
      rw [restoreAll, perform_bind, perform_bind, htexts, htexts']
      rfl
    have hproblems : ((restoreAll textDecoder (name :: names)).perform texts).2.1 =
        ((restore textDecoder name).perform texts).2.1 ++
          ((restoreAll textDecoder names).perform (discarded textDecoder texts name)).2.1 := by
      rw [restoreAll, perform_bind, perform_bind, htexts]
      simp
    refine ⟨hfst, ?_, fun hall => ?_⟩
    · rw [restoreAll, perform_bind, perform_bind, htexts, houtcome, hresult']
      cases hstored : stored? textDecoder texts name with
      | none => simp [hstored]
      | some configuration => simp [hstored]
    · rw [hproblems, hquiet (hall name List.mem_cons_self), hquiet' fun other hother =>
        hall other (List.mem_cons_of_mem _ hother)]
      rfl

theorem foldl_discarded (names : List JsString) (texts : StoredTexts) :
    (∀ other, stored? textDecoder (names.foldl (discarded textDecoder) texts) other = stored?
      textDecoder texts other) ∧
      names.foldl (discarded textDecoder) texts .index = texts .index ∧
      ((∀ name ∈ names, (stored? textDecoder texts name).isSome) →
        names.foldl (discarded textDecoder) texts = texts) := by
  induction names generalizing texts with
  | nil => exact ⟨fun _ => rfl, rfl, fun _ => rfl⟩
  | cons name names ih =>
    obtain ⟨hstored, hindex, hsame⟩ := ih (discarded textDecoder texts name)
    simp only [stored?_discarded] at hstored hsame
    refine ⟨hstored, hindex.trans (discarded_index name texts), fun hall => ?_⟩
    have hname : discarded textDecoder texts name = texts := by
      have hsome := Option.isSome_iff_ne_none.mp (hall name List.mem_cons_self)
      rw [discarded, if_neg (by simpa [Option.isNone_iff_eq_none] using hsome)]
    rw [List.foldl_cons,
      hsame fun other hother => hall other (List.mem_cons_of_mem _ hother), hname]

/-! ### load and find -/

theorem name_of_stored? {configuration : NormalizedConfiguration}
    (h : stored? textDecoder texts name = some configuration) :
    configuration.name.val = name ∧
      ∃ options, normalizeConfiguration textDecoder
      (.string configuration.name.val) options = .ok configuration := by
  obtain ⟨parsed, _, hvalid⟩ := Option.bind_eq_some_iff.mp h
  cases hnormalized : normalizeConfiguration textDecoder (.string name) parsed with
  | error problem =>
    rw [hnormalized] at hvalid
    cases hvalid
  | ok found =>
    rw [hnormalized] at hvalid
    obtain rfl : found = configuration := Option.some.inj hvalid
    obtain ⟨hname, _⟩ := eq_of_normalizeConfiguration hnormalized
    obtain rfl := JsTree.string.inj hname
    exact ⟨rfl, parsed, hnormalized⟩

theorem names_filterMap (names : List JsString) (texts : StoredTexts) :
    (names.filterMap (stored? textDecoder texts)).map
    (fun configuration => configuration.name.val) =
      names.filter fun name => (stored? textDecoder texts name).isSome := by
  induction names with
  | nil => rfl
  | cons name names ih =>
    cases hstored : stored? textDecoder texts name with
    | none => rw [List.filterMap_cons_none hstored, List.filter_cons_of_neg (by simp [hstored]), ih]
    | some configuration =>
      rw [List.filterMap_cons_some hstored, List.filter_cons_of_pos (by simp [hstored]),
        List.map_cons, ih,
        (name_of_stored? hstored).1]

/-- Of the names of a list, what is restored for one of them. -/
theorem find?_filterMap {names : List JsString} (name : JsString) (texts : StoredTexts) :
    (names.filterMap (stored? textDecoder texts)).find?
    (fun configuration => configuration.name.val = name) =
      if name ∈ names then stored? textDecoder texts name else none := by
  induction names with
  | nil => rfl
  | cons other names ih =>
    by_cases heq : other = name
    · subst heq
      rw [if_pos List.mem_cons_self]
      cases hstored : stored? textDecoder texts other with
      | none =>
        rw [List.filterMap_cons_none hstored, ih, hstored]
        split <;> rfl
      | some configuration =>
        rw [List.filterMap_cons_some hstored,
          List.find?_cons_of_pos (by simpa using (name_of_stored? hstored).1)]
    · have hmem : name ∈ other :: names ↔ name ∈ names := by
        rw [List.mem_cons, or_iff_right fun h => heq h.symm]
      simp only [hmem]
      cases hstored : stored? textDecoder texts other with
      | none => rw [List.filterMap_cons_none hstored, ih]
      | some configuration =>
        rw [List.filterMap_cons_some hstored,
          List.find?_cons_of_neg (by simpa [(name_of_stored? hstored).1] using heq), ih]

theorem perform_find (name : JsString) (texts : StoredTexts) :
    (find textDecoder name).perform texts =
      (texts, [], if name ∈ (listed texts).names then stored? textDecoder texts name
        else none) := by
  rw [find, read_bind, perform_getItem, listed]
  cases hindex : texts .index with
  | none => simp [JsonText.parse]
  | some raw =>
    cases hparse : raw.parse with
    | none => simp [hparse]
    | some value =>
      cases value with
      | array elements =>
        simp only [Option.getD_some, hparse, any_isSame, Option.bind_some]
        by_cases hmem : name ∈ namesOf elements
        · cases hentry : texts (.entry name) with
          | none => simp [hmem, stored?, hentry]
          | some raw => simp [hmem, stored?, hentry]
        · simp [hmem]
      | _ => simp [hparse]

theorem stored?_withoutUnreadable (name : JsString) (texts : StoredTexts) :
    stored? textDecoder (withoutUnreadable texts) name = stored? textDecoder texts name := by
  rw [stored?, stored?, withoutUnreadable_entry]

/-- What `load` does with working storage, from what is stored. -/
theorem perform_load (texts : StoredTexts) :
    let names := (listed texts).names
    let restored := (names.filterMap (stored? textDecoder texts), names.filter fun name =>
      (stored? textDecoder texts name).isSome)
    let cleaned := names.foldl (discarded textDecoder) (withoutUnreadable texts)
    ((load textDecoder).perform texts).2.2 = restored.1 ∧
      ((load textDecoder).perform texts).1 =
        (if !(listed texts).isIntact || restored.2.length ≠ names.length then
          Function.update cleaned .index (some (.stringify (.array (restored.2.map .string))))
        else cleaned) ∧
      ((listed texts).isIntact = true → (∀ name ∈ names, (stored? textDecoder texts name).isSome) →
        ((load textDecoder).perform texts).2.1 = ((readIndex true).perform texts).2.1) := by
  obtain ⟨hread, hlisted⟩ := perform_readIndex true texts
  obtain ⟨htexts, hresult, hquiet⟩ :=
    @perform_restoreAll textDecoder (listed texts).names (withoutUnreadable texts)
  have hstored : stored? textDecoder (withoutUnreadable texts) = stored? textDecoder texts :=
    funext fun name => stored?_withoutUnreadable name texts
  rw [hstored] at hresult hquiet
  rw [load, perform_bind, hread, hlisted]
  simp only [perform_bind, htexts, hresult]
  split
  case isTrue hrewrite =>
    refine ⟨by simp [writeIndex, write], by simp [writeIndex, write], fun hintact hall => ?_⟩
    have hkept : ((listed texts).names.filter fun name =>
        (stored? textDecoder texts name).isSome) = (listed texts).names :=
      List.filter_eq_self.mpr hall
    rw [hkept, hintact] at hrewrite
    simp at hrewrite
  case isFalse hsame =>
    refine ⟨by simp, by simp, fun _ hall => ?_⟩
    rw [hquiet hall]
    simp

/-- The index is an array, or there is none. -/
def IsReadable (texts : StoredTexts) : Prop :=
  ∀ raw, texts .index = some raw → ∃ elements, raw.parse = some (.array elements)

theorem IsReadable.of_index {texts' : StoredTexts} (h : IsReadable texts)
    (hindex : texts' .index = texts .index) : IsReadable texts' :=
  fun raw hraw => h raw (hindex ▸ hraw)

theorem IsReadable.withoutUnreadable_eq (h : IsReadable texts) :
    withoutUnreadable texts = texts := by
  rw [withoutUnreadable]
  cases hindex : texts .index with
  | none => rfl
  | some raw =>
    obtain ⟨elements, hparse⟩ := h raw hindex
    simp only [hparse]

theorem isReadable_withoutUnreadable (texts : StoredTexts) :
    IsReadable (withoutUnreadable texts) := by
  intro raw hraw
  rw [withoutUnreadable] at hraw
  cases hindex : texts .index with
  | none =>
    simp only [hindex] at hraw
    cases hraw
  | some stored =>
    cases hparse : stored.parse with
    | none => simp [hindex, hparse] at hraw
    | some value =>
      cases value with
      | array elements =>
        simp only [hindex, hparse] at hraw
        obtain rfl : stored = raw := Option.some.inj hraw
        exact ⟨elements, hparse⟩
      | _ => simp [hindex, hparse] at hraw

theorem isReadable_of_strings
    (hindex : texts .index = some (.stringify (.array (names.map .string)))) :
    IsReadable texts := by
  intro raw hraw
  obtain rfl := Option.some.inj (hindex.symm.trans hraw)
  exact ⟨_, rfl⟩

theorem listed_congr {texts' : StoredTexts} (hindex : texts' .index = texts .index) :
    listed texts' = listed texts := by
  rw [listed, listed, hindex]

theorem listed_withoutUnreadable (texts : StoredTexts) :
    listed (withoutUnreadable texts) = listed texts := by
  rw [withoutUnreadable, listed, listed]
  cases hindex : texts .index with
  | none => simp [hindex]
  | some raw =>
    cases hparse : raw.parse with
    | none => simp [hparse]
    | some value => cases value <;> simp [hindex, hparse]

/-- An index in which every element is a name of its own is read without a word. -/
theorem readIndex_quiet (h : IsReadable texts) (hintact : (listed texts).isIntact = true) :
    ((readIndex true).perform texts).2.1 = [] := by
  rw [readIndex, read_bind, perform_getItem]
  cases hindex : texts .index with
  | none => rfl
  | some raw =>
    obtain ⟨elements, hparse⟩ := h raw hindex
    have hlength : (namesOf elements).length = elements.length := by
      rw [listed, hindex] at hintact
      simpa [hparse] using hintact
    simp [hparse, hlength]

/-- What a load leaves behind: an index of exactly the names it restored, which can be read, and the
same configurations. -/
theorem after_load (texts : StoredTexts) :
    listed ((load textDecoder).perform texts).1 =
        ⟨(listed texts).names.filter fun name => (stored? textDecoder texts name).isSome, true⟩ ∧
      IsReadable ((load textDecoder).perform texts).1 ∧
      ∀ name, stored? textDecoder
      ((load textDecoder).perform texts).1 name = stored? textDecoder texts name := by
  obtain ⟨_, htexts, _⟩ := @perform_load textDecoder texts
  obtain ⟨hstored, hindex, _⟩ :=
    @foldl_discarded textDecoder (listed texts).names (withoutUnreadable texts)
  simp only [stored?_withoutUnreadable] at hstored
  have hnodup := (listed_nodup texts).filter fun name => (stored? textDecoder texts name).isSome
  rw [htexts]
  split
  case isTrue =>
    refine ⟨listed_of_index (Function.update_self ..) hnodup,
      isReadable_of_strings (Function.update_self ..), fun name => ?_⟩
    rw [← hstored name, stored?, stored?, Function.update_of_ne StorageKey.noConfusion]
  case isFalse hsame =>
    simp only [Bool.or_eq_true, Bool.not_eq_true', decide_eq_true_eq, not_or, Bool.not_eq_false,
      not_not] at hsame
    obtain ⟨hintact, hlength⟩ := hsame
    have hkept : ((listed texts).names.filter fun name =>
        (stored? textDecoder texts name).isSome) = (listed texts).names :=
      List.filter_sublist.eq_of_length hlength
    refine ⟨?_, (isReadable_withoutUnreadable texts).of_index hindex, hstored⟩
    rw [listed_congr hindex, listed_withoutUnreadable, hkept, ← hintact]

/-- What a load restores for a name is what is found for it. -/
theorem find?_load (name : JsString) (texts : StoredTexts) :
    ((load textDecoder).perform texts).2.2.find?
    (fun configuration => configuration.name.val = name) =
      ((find textDecoder name).perform texts).2.2 := by
  obtain ⟨hrestored, _, _⟩ := @perform_load textDecoder texts
  rw [hrestored, perform_find, find?_filterMap]

/-- **Loading survives any stored content and agrees with `find`.** -/
theorem load_survives (textDecoder : JsString → Option JsString) (texts : StoredTexts) :
    (∃ n, ∀ fates : List OperationFate, n ≤ fates.length →
      ((load textDecoder).run fates texts).result.isSome = true) ∧
      (∀ configuration ∈ ((load textDecoder).perform texts).2.2,
        ∃ options, normalizeConfiguration textDecoder
        (.string configuration.name.val) options = .ok configuration) ∧
      ((((load textDecoder).perform texts).2.2.map fun configuration =>
        configuration.name.val).Sublist (listed texts).names ∧
        (((load textDecoder).perform texts).2.2.map fun configuration =>
          configuration.name.val).Nodup) ∧
      listed ((load textDecoder).perform texts).1 =
        ⟨((load textDecoder).perform texts).2.2.map
          fun configuration => configuration.name.val, true⟩ ∧
      (load textDecoder).perform ((load textDecoder).perform texts).1 =
        (((load textDecoder).perform texts).1, [], ((load textDecoder).perform texts).2.2) ∧
      ∀ name, ((find textDecoder name).perform texts).2.2 =
        ((load textDecoder).perform texts).2.2.find? fun configuration =>
          configuration.name.val = name := by
  obtain ⟨hrestored, _, _⟩ := @perform_load textDecoder texts
  obtain ⟨hlisted, hreadable, hstored⟩ := @after_load textDecoder texts
  have hfound := fun name => (@find?_load textDecoder name texts).symm
  rw [hrestored] at hfound
  rw [hrestored, names_filterMap]
  refine ⟨returns _ _, fun configuration hmem => ?_,
    ⟨List.filter_sublist, (listed_nodup texts).filter _⟩, hlisted, ?_, hfound⟩
  · obtain ⟨name, _, hname⟩ := List.mem_filterMap.mp hmem
    exact (name_of_stored? hname).2
  · have hsome : ∀ name ∈ (listed texts).names.filter fun name =>
        (stored? textDecoder texts name).isSome,
        (stored? textDecoder texts name).isSome = true :=
        fun name hname => (List.mem_filter.mp hname).2
    obtain ⟨hrestored', htexts', hquiet'⟩ :=
      @perform_load textDecoder ((load textDecoder).perform texts).1
    have hfun : stored? textDecoder ((load textDecoder).perform texts).1 = stored? textDecoder
      texts := funext hstored
    rw [hlisted, hfun] at hrestored' htexts' hquiet'
    have hall : ((listed texts).names.filter fun name =>
      (stored? textDecoder texts name).isSome).filter
        (fun name => (stored? textDecoder texts name).isSome) = (listed texts).names.filter
          fun name => (stored? textDecoder texts name).isSome :=
      List.filter_eq_self.mpr hsome
    refine Prod.ext ?_ (Prod.ext ?_ ?_)
    · rw [htexts', hall, if_neg (by simp), hreadable.withoutUnreadable_eq]
      refine (foldl_discarded _ _).2.2 fun name hname => ?_
      rw [hstored name]
      exact hsome name hname
    · refine (hquiet' rfl hsome).trans (readIndex_quiet hreadable ?_)
      rw [hlisted]
    · rw [hrestored']
      show ((listed texts).names.filter fun name =>
        (stored? textDecoder texts name).isSome).filterMap (stored? textDecoder texts) =
        (listed texts).names.filterMap (stored? textDecoder texts)
      rw [List.filterMap_filter]
      refine List.filterMap_congr fun name _ => ?_
      cases stored? textDecoder texts name <;> rfl

/-! ### saving -/

/-- What `#listName` writes. -/
theorem listing_spec (hnodup : names.Nodup) (name : JsString) :
    (if names.contains name = true then names else names ++ [name]).Nodup ∧
      name ∈ if names.contains name = true then names else names ++ [name] := by
  split
  case isTrue hcontains => exact ⟨hnodup, by simpa using hcontains⟩
  case isFalse hmissing =>
    have hnew : name ∉ names := by simpa using hmissing
    exact ⟨List.nodup_append'.mpr ⟨hnodup, List.nodup_singleton name,
      List.disjoint_singleton.mpr hnew⟩, by simp⟩

/-- A name that is listed is listed, and no entry is touched. -/
theorem perform_listName (name : JsString) (texts : StoredTexts) :
    name ∈ (listed ((listName name).perform texts).1).names ∧
      ∀ other, ((listName name).perform texts).1 (.entry other) = texts (.entry other) := by
  obtain ⟨hread, hlisted⟩ := perform_readIndex false texts
  rw [listName, perform_bind, hread, hlisted]
  by_cases hkept : ((listed texts).isIntact && (listed texts).names.contains name) = true
  · simp only [hkept, if_pos, pure_eq, perform_done]
    refine ⟨?_, withoutUnreadable_entry texts⟩
    rw [listed_withoutUnreadable]
    simpa using (Bool.and_eq_true_iff.mp hkept).2
  · obtain ⟨hnodup, hmem⟩ := listing_spec (listed_nodup texts) name
    simp only [hkept, writeIndex, write, setItem_bind, perform_setItem, Bool.false_eq_true,
      if_false, if_true, pure_eq, done_bind, perform_done]
    refine ⟨?_, fun other => ?_⟩
    · rw [listed_of_index (Function.update_self ..) hnodup]
      exact hmem
    · exact (Function.update_of_ne StorageKey.noConfusion ..).trans
        (withoutUnreadable_entry texts other)

theorem keepingResolution_eq (configuration : NormalizedConfiguration)
    (stored : Option NormalizedConfiguration) :
    keepingResolution configuration stored =
      { configuration with device := (keepingResolution configuration stored).device } := by
  rw [keepingResolution]
  split <;> rfl

theorem perform_keepingStoredResolution (configuration : NormalizedConfiguration)
    (texts : StoredTexts) :
    (keepingStoredResolution textDecoder configuration).perform texts =
      (texts, [], keepingResolution configuration
        ((find textDecoder configuration.name.val).perform texts).2.2) := by
  rw [keepingStoredResolution]
  split
  case isTrue =>
    rw [perform_bind, perform_find]
    rfl
  case isFalse hresolved =>
    rw [keepingResolution]
    split
    case h_1 hauto _ => exact absurd hauto hresolved
    case h_2 => rfl

/-- A saved configuration is found as it was, with the resolution that was stored where it has
none. -/
theorem find_save (hlabels : ∀ label encoding, textDecoder label = some encoding →
      encoding ≠ [] ∧ textDecoder encoding = some encoding)
    {options : JsTree} {configuration : NormalizedConfiguration} {argument : JsTree}
    (hvalid : normalizeConfiguration textDecoder argument options = .ok configuration)
    (hremember : configuration.remember = true)
    (texts : StoredTexts) :
    ((find textDecoder configuration.name.val).perform
      ((save textDecoder configuration).perform texts).1).2.2 =
      some (keepingResolution configuration
        ((find textDecoder configuration.name.val).perform texts).2.2) := by
  obtain ⟨_, label, hlabel⟩ := eq_of_normalizeConfiguration hvalid
  obtain ⟨hne, hsame⟩ := hlabels label _ hlabel
  generalize hkept :
    keepingResolution configuration
    ((find textDecoder configuration.name.val).perform texts).2.2 = kept
  have heq := keepingResolution_eq configuration
    ((find textDecoder configuration.name.val).perform texts).2.2
  rw [hkept] at heq
  have hread : normalizeConfiguration textDecoder (.string configuration.name.val)
      (toStorable kept).throughJson = .ok kept := by
    rw [heq]
    exact normalizeConfiguration_stored (c := { configuration with
      device := kept.device }) hne hsame hremember
  obtain ⟨hlisted, hentries⟩ := perform_listName configuration.name.val
    (Function.update texts (.entry configuration.name.val) (some (.stringify (toStorable kept))))
  have hsaved : ((save textDecoder configuration).perform texts).1
    = ((listName configuration.name.val).perform
      (Function.update texts (.entry configuration.name.val)
        (some (.stringify (toStorable kept))))).1 := by
    rw [save, if_pos hremember, perform_bind, perform_keepingStoredResolution, hkept]
    simp [write]
  rw [hsaved, perform_find, if_pos hlisted, stored?, hentries, Function.update_self]
  simp [hread, Except.toOption]

/-- **A configuration survives storage and re-validation.** -/
theorem survives_storage
    (hlabels : ∀ label encoding, textDecoder label = some encoding →
      encoding ≠ [] ∧ textDecoder encoding = some encoding)
    {name options : JsTree} {configuration : NormalizedConfiguration}
    (hvalid : normalizeConfiguration textDecoder name options = .ok configuration) :
    normalizeConfiguration textDecoder name (toSetupOptions configuration) = .ok configuration ∧
      (configuration.remember = true → ∀ texts : StoredTexts,
        let before := ((find textDecoder configuration.name.val).perform texts).2.2
        let saved := ((save textDecoder configuration).perform texts).1
        let kept := keepingResolution configuration before
        ((find textDecoder configuration.name.val).perform saved).2.2 = some kept ∧
          ((load textDecoder).perform saved).2.2.find? (fun loaded =>
            loaded.name.val = configuration.name.val) = some kept ∧
          (kept = configuration ∨ configuration.device = .auto none ∧
            ∃ earlier device, before = some earlier ∧
            earlier.device = .auto (some device) ∧ kept =
              { configuration with device := .auto (some device) })) := by
  refine ⟨normalizeConfiguration_toSetupOptions hlabels hvalid, fun hremember texts => ?_⟩
  have hfound := find_save hlabels hvalid hremember texts
  refine ⟨hfound, (find?_load _ _).trans hfound, ?_⟩
  rw [keepingResolution]
  split
  case h_1 device hauto hbefore =>
    obtain ⟨earlier, hearlier, hdevice⟩ := Option.map_eq_some_iff.mp hbefore
    exact .inr ⟨hauto, earlier, device, hearlier, hdevice, rfl⟩
  case h_2 => exact .inl rfl

/-- A `TextDecoder` that knows one encoding. -/
def utf8Only (label : JsString) : Option JsString := if label = js "utf-8" then some label else none

/-- A configuration of which only the line speed was given. -/
def scaleSetup : NormalizedConfiguration :=
  defaultConfiguration ⟨js "scale", by decide +kernel⟩ ⟨9600, by decide⟩ (js "utf-8")

theorem normalizeConfiguration_scaleSetup :
    normalizeConfiguration utf8Only (.string (js "scale"))
    (.object [(js "serial", .object [(js "baudRate", .ofNat 9600)])]) =
      .ok scaleSetup :=
  normalizeConfiguration_defaults scaleSetup.name scaleSetup.serial.baudRate (if_pos rfl)

/-- Saved over an entry that had been resolved to a port that is no USB device, it keeps that
resolution. -/
theorem survives_storage_scaleSetup :
    let resolved := { scaleSetup with device := .auto (some .nonUsb) }
    let texts := Function.update
        (Function.update (fun _ => none) .index (some (.stringify (.array [.string (js "scale")]))))
      (.entry (js "scale")) (some (.stringify (toStorable resolved)))
    normalizeConfiguration utf8Only (.string (js "scale"))
      (toSetupOptions scaleSetup) = .ok scaleSetup ∧
      ((find utf8Only (js "scale")).perform ((save utf8Only scaleSetup).perform texts).1).2.2
        = some resolved := by
  intro resolved texts
  have hlabels : ∀ label encoding, utf8Only label = some encoding →
      encoding ≠ [] ∧ utf8Only encoding = some encoding := by
    intro label encoding hencoding
    rw [utf8Only] at hencoding
    split at hencoding
    case isTrue hutf8 =>
      obtain rfl := Option.some.inj hencoding
      rw [hutf8]
      exact ⟨by decide, rfl⟩
    case isFalse => cases hencoding
  obtain ⟨hoptions, hstored⟩ := survives_storage hlabels normalizeConfiguration_scaleSetup
  have hread : normalizeConfiguration utf8Only (.string (js "scale"))
      (toStorable resolved).throughJson = .ok resolved :=
    normalizeConfiguration_stored (c := resolved) (by decide) rfl rfl
  have hlisted : listed texts = ⟨[js "scale"], true⟩ := by
    refine listed_of_index ?_ (List.nodup_singleton _)
    exact (Function.update_of_ne StorageKey.noConfusion _ _).trans (Function.update_self ..)
  have hbefore : ((find utf8Only (js "scale")).perform texts).2.2 = some resolved := by
    have hentry : texts (.entry (js "scale")) = some (.stringify (toStorable resolved)) :=
      Function.update_self ..
    rw [perform_find, hlisted, if_pos (List.mem_singleton_self _), stored?, hentry]
    simp [hread, Except.toOption]
  refine ⟨hoptions, (hstored rfl texts).1.trans ?_⟩
  show some (keepingResolution scaleSetup ((find utf8Only (js "scale")).perform texts).2.2) = _
  rw [hbefore]
  rfl

end SerialBroker.ConfigurationStore
