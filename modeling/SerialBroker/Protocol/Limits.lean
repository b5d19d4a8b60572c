import Mathlib.Data.List.Perm.Subperm
import SerialBroker.Lib.JsValues

/-!
# How much the bus may make a context hold

The limits of `protocol/limits.ts` that a message is held to, and the walk that holds a nested
structure to a budget. The walk is a loop over the values not looked at yet, and refuses what it
meets a second time; what it accepts is what `Trees` describes, taken apart in any order.

There are two ways to take an object apart. `walkedPart` is the walk's own: the elements of an
array, the properties of a plain object. `statedPart` is the one the limits are stated in, which
counts every value in a structure and only plain ones: an array may have named properties as well,
and a `bigint` is not a plain value.
-/

namespace SerialBroker.Wire

def maxIdentifierLength : Nat := 256

def maxConfigNameLength : Nat := 128

def maxPayloadBytes : Nat := 16 * 1024 * 1024

def maxTextLength : Nat := 2 * maxPayloadBytes

def maxHelloConfigurations : Nat := 1024

def maxErrorValues : Nat := 256

def maxErrorCharacters : Nat := 64 * 1024

def maxReportValues : Nat := 64 * maxHelloConfigurations

def maxReportCharacters : Nat := 1024 * 1024

def maxLogRecordValues : Nat := 32

def maxLogRecordCharacters : Nat := 4 * 1024

/-- A bound on a nested structure: how many values, and how many characters in total. -/
structure StructureBudget where
  values : Nat
  characters : Nat

/-- The part of a budget that was exceeded. -/
inductive BudgetExcess
  | values
  | characters
  deriving DecidableEq

def isTreeNode (o : JsObject) : Bool := o.isArray || o.kind = .plain

/-- What `pushChildren` pushes. -/
def childrenOf (o : JsObject) : List JsValue := if o.isArray then o.elements else o.values

/-- How many children a node has, counted no further than one beyond `limit`. -/
def widthOf (o : JsObject) (limit : Nat) : Nat :=
  if o.isArray then o.elements.length else min o.properties.length (limit + 1)

/-- The loop of `measureStructure`, with the end of `pending` first; `remaining` is `budget.values -
values`. -/
def measureLoop (h : JsHeap) (budget : StructureBudget) :
    Nat → Nat → List JsRef → List JsValue → Option BudgetExcess × Nat
  | _, characters, _, [] => (none, characters)
  | 0, characters, _, _ :: _ => (some .values, characters)
  | remaining + 1, characters, seen, value :: pending =>
    match value with
    | .function | .symbol => (some .values, characters)
    | .string s =>
      if characters + s.length > budget.characters then (some .characters, characters + s.length)
      else measureLoop h budget remaining (characters + s.length) seen pending
    | .object r =>
      if r ∈ seen ∨ isTreeNode (h.read r) = false then (some .values, characters)
      else if pending.length + widthOf (h.read r) budget.values > remaining then
        (some .values, characters)
      else measureLoop h budget remaining characters (r :: seen)
        ((childrenOf (h.read r)).reverse ++ pending)
    | .undefined | .null | .boolean _ | .number _ | .bigint _ =>
      measureLoop h budget remaining characters seen pending

def measureStructure (h : JsHeap) (root : JsValue) (budget : StructureBudget) :
    Option BudgetExcess × Nat :=
  measureLoop h budget budget.values 0 [] [root]

def exceedsStructureBudget (h : JsHeap) (root : JsValue) (budget : StructureBudget) :
    Option BudgetExcess :=
  (measureStructure h root budget).1

/-- What the walk makes of a value. -/
def walkedPart (h : JsHeap) : JsValue → JsPart
  | .function | .symbol => .alien
  | .string s => .leaf s.length
  | .object r => if isTreeNode (h.read r) then .node r (childrenOf (h.read r)) else .alien
  | .undefined | .null | .boolean _ | .number _ | .bigint _ => .leaf 0

/-- What a value is made of, as the limits say it. -/
def statedPart (h : JsHeap) : JsValue → JsPart
  | .function | .symbol | .bigint _ => .alien
  | .string s => .leaf s.length
  | .object r =>
    if isTreeNode (h.read r) then .node r ((h.read r).elements ++ (h.read r).values) else .alien
  | .undefined | .null | .boolean _ | .number _ => .leaf 0

variable {h : JsHeap} {budget : StructureBudget} {remaining characters characters' : Nat}
  {seen : List JsRef}
  {pending : List JsValue} {o : JsObject}

/-- What the loop accepts: trees of objects it has not seen, within what is left of the budget. -/
def Fits (h : JsHeap) (budget : StructureBudget) (remaining characters : Nat) (seen : List JsRef)
    (pending : List JsValue)
    (characters' : Nat) : Prop :=
  ∃ refs n c, Trees (walkedPart h) pending refs n c ∧ refs.Nodup ∧ (∀ r ∈ refs, r ∉ seen) ∧
    n ≤ remaining ∧
    characters + c ≤ budget.characters ∧ characters' = characters + c

theorem widthOf_le (o : JsObject) (limit : Nat) : widthOf o limit ≤ (childrenOf o).length := by
  unfold childrenOf widthOf
  split
  · exact Nat.le_refl _
  · simp only [JsObject.values, List.length_map]
    exact Nat.min_le_left _ _

theorem perm_children : ((childrenOf o).reverse ++ pending).Perm (childrenOf o ++ pending) :=
  (List.reverse_perm _).append_right _

theorem Fits.object {r : JsRef} (hnew : r ∉ seen) (hnode : isTreeNode (h.read r) = true)
    (hrest : Fits h budget remaining characters (r :: seen) ((childrenOf (h.read r)).reverse ++
      pending) characters') :
    Fits h budget (remaining + 1) characters seen (.object r :: pending) characters' := by
  obtain ⟨refs, n, c, htrees, hnodup, hseen, hn, hc, hc'⟩ := hrest
  obtain ⟨refs', hrefs, htrees⟩ := htrees.perm perm_children
  refine ⟨r :: refs', n + 1, c, .node (by simp [walkedPart, hnode]) htrees, ?_, ?_,
    Nat.succ_le_succ hn, hc, hc'⟩
  · refine List.nodup_cons.mpr ⟨fun hr => ?_, hrefs.nodup hnodup⟩
    exact hseen r (hrefs.mem_iff.mpr hr) List.mem_cons_self
  · intro r' hr'
    rcases List.mem_cons.mp hr' with rfl | hr'
    · exact hnew
    · exact fun hmem => hseen r' (hrefs.mem_iff.mpr hr') (List.mem_cons_of_mem _ hmem)

theorem Fits.of_object {r : JsRef}
    (hfits : Fits h budget remaining characters seen (.object r :: pending) characters') :
    ∃ remaining', remaining = remaining' + 1 ∧ r ∉ seen ∧ isTreeNode (h.read r) = true ∧
      pending.length + (childrenOf (h.read r)).length ≤ remaining' ∧
      Fits h budget remaining' characters (r :: seen)
      ((childrenOf (h.read r)).reverse ++ pending) characters' := by
  obtain ⟨refs, n, c, htrees, hnodup, hseen, hn, hc, hc'⟩ := hfits
  cases htrees with
  | leaf hv =>
    simp only [walkedPart] at hv
    split at hv <;> exact nomatch hv
  | @node _ _ children ref refs n _ hv hrest =>
    simp only [walkedPart] at hv
    split at hv
    · next hnode =>
      obtain ⟨rfl, rfl⟩ := JsPart.node.inj hv
      obtain ⟨hfresh, hnodup⟩ := List.nodup_cons.mp hnodup
      obtain ⟨refs', hrefs, htrees⟩ := hrest.perm perm_children.symm
      have hlen := hrest.length_le
      rw [List.length_append] at hlen
      refine ⟨remaining - 1, by omega, hseen _ List.mem_cons_self, hnode, by omega, refs', n, c,
        htrees, hrefs.nodup hnodup, ?_,
        by omega, hc, hc'⟩
      intro r' hr' hmem
      have hr' := hrefs.mem_iff.mpr hr'
      rcases List.mem_cons.mp hmem with rfl | hmem
      · exact hfresh hr'
      · exact hseen r' (List.mem_cons_of_mem _ hr') hmem
    · exact nomatch hv

theorem Fits.leaf {v : JsValue} (text : Nat) (hv : walkedPart h v = .leaf text) :
    Fits h budget (remaining + 1) characters seen (v :: pending) characters' ↔
      Fits h budget remaining (characters + text) seen pending characters' := by
  constructor
  · rintro ⟨refs, n, c, htrees, hnodup, hseen, hn, hc, hc'⟩
    cases htrees with
    | node hv' => exact nomatch hv.symm.trans hv'
    | leaf hv' htrees =>
      obtain rfl := JsPart.leaf.inj (hv.symm.trans hv')
      exact ⟨refs, _, _, htrees, hnodup, hseen, by omega, by omega, by omega⟩
  · rintro ⟨refs, n, c, htrees, hnodup, hseen, hn, hc, hc'⟩
    exact ⟨refs, n + 1, c + text, .leaf hv htrees, hnodup, hseen, by omega, by omega, by omega⟩

theorem Fits.not_alien {v : JsValue} (hv : walkedPart h v = .alien) :
    ¬ Fits h budget remaining characters seen (v :: pending) characters' := by
  rintro ⟨refs, n, c, htrees, -⟩
  cases htrees with
  | leaf hv' => exact nomatch hv.symm.trans hv'
  | node hv' => exact nomatch hv.symm.trans hv'

theorem Fits.le_remaining (hfits : Fits h budget remaining characters seen pending characters') :
    pending.length ≤ remaining := by
  obtain ⟨refs, n, c, htrees, -, -, hn, -⟩ := hfits
  exact htrees.length_le.trans hn

theorem Fits.le_characters (hfits : Fits h budget remaining characters seen pending characters') :
    characters ≤ budget.characters := by
  obtain ⟨refs, n, c, -, -, -, -, hc, -⟩ := hfits
  omega

theorem Fits.nil : Fits h budget remaining characters seen [] characters' ↔
    characters ≤ budget.characters ∧ characters' = characters := by
  constructor
  · rintro ⟨refs, n, c, htrees, -, -, -, hc, hc'⟩
    cases htrees
    exact ⟨hc, hc'⟩
  · rintro ⟨hc, rfl⟩
    exact ⟨[], 0, 0, .nil, List.nodup_nil, nofun, Nat.zero_le _, hc, rfl⟩

theorem measureLoop_iff (hremaining : remaining ≤ budget.values)
    (hcharacters : characters ≤ budget.characters) :
    measureLoop h budget remaining characters seen pending = (none, characters') ↔
      Fits h budget remaining characters seen pending characters' := by
  induction remaining generalizing characters seen pending with
  | zero =>
    cases pending with
    | nil => simp [measureLoop, Fits.nil, hcharacters, eq_comm]
    | cons value pending =>
      refine ⟨fun hloop => by simp [measureLoop] at hloop, fun hfits => ?_⟩
      exact absurd hfits.le_remaining (by simp)
  | succ remaining ih =>
    have ih := fun {characters} (hc : characters ≤ budget.characters) {seen pending} =>
      @ih characters seen pending (Nat.le_of_succ_le hremaining) hc
    cases pending with
    | nil => simp [measureLoop, Fits.nil, hcharacters, eq_comm]
    | cons value pending =>
      cases value with
      | function | symbol =>
        exact ⟨fun hloop => by simp [measureLoop] at hloop, fun hfits =>
          absurd hfits (Fits.not_alien rfl)⟩
      | string s =>
        rw [measureLoop, Fits.leaf s.length rfl]
        split
        · next hover =>
          refine ⟨fun hloop => by simp at hloop, fun hfits => ?_⟩
          exact absurd hfits.le_characters (by omega)
        · next hfitting => exact ih (Nat.le_of_not_lt hfitting)
      | object r =>
        rw [measureLoop]
        constructor
        · intro hloop
          split at hloop
          · simp at hloop
          · next hnode =>
            simp only [not_or, Bool.not_eq_false] at hnode
            split at hloop
            · simp at hloop
            · exact ((ih hcharacters).mp hloop).object hnode.1 hnode.2
        · intro hfits
          obtain ⟨remaining', hsucc, hnew, hnode, hwidth, hrest⟩ := hfits.of_object
          obtain rfl : remaining = remaining' := Nat.succ.inj hsucc
          have hle := widthOf_le (h.read r) budget.values
          rw [if_neg (by simp [hnew, hnode]), if_neg (by omega)]
          exact (ih hcharacters).mpr hrest
      | undefined | null | boolean _ | number _ | bigint _ =>
        rw [measureLoop, Fits.leaf 0 rfl]
        exact ih hcharacters

/-- **The walk equals its recursive definition**: it accepts exactly the trees that are within the
budget. -/
theorem exceedsStructureBudget_iff (h : JsHeap) (v : JsValue) (budget : StructureBudget) :
    exceedsStructureBudget h v budget = none ↔ IsTreeWithin
    (walkedPart h) v budget.values budget.characters := by
  have hloop (c : Nat) : measureLoop h budget budget.values 0 [] [v] = (none, c) ↔
      Fits h budget budget.values 0 [] [v] c :=
    measureLoop_iff (Nat.le_refl _) (Nat.zero_le _)
  constructor
  · intro hnone
    obtain ⟨refs, n, c, htrees, hnodup, -, hn, hc, -⟩ :=
      (hloop (measureStructure h v budget).2).mp (Prod.ext hnone rfl)
    exact ⟨refs, n, c, htrees, hnodup, hn, by omega⟩
  · rintro ⟨refs, n, c, htrees, hnodup, hn, hc⟩
    have hfits : Fits h budget budget.values 0 [] [v] c :=
      ⟨refs, n, c, htrees, hnodup, fun _ _ => List.not_mem_nil, hn, by omega, by omega⟩
    exact congrArg Prod.fst ((hloop c).mpr hfits)

/-! ### what the walk does not count -/

theorem walkedPart_of_statedPart_leaf {v : JsValue} {text : Nat}
    (hv : statedPart h v = .leaf text) : walkedPart h v = .leaf text := by
  cases v with
  | object r =>
    simp only [statedPart] at hv
    split at hv <;> exact nomatch hv
  | function | symbol | bigint _ => exact nomatch hv
  | undefined | null | boolean _ | number _ | string _ => exact hv

theorem walkedPart_of_statedPart_node {v : JsValue} {ref : JsRef} {children : List JsValue}
    (hv : statedPart h v = .node ref children) :
    ∃ walked uncounted, walkedPart h v = .node ref walked ∧ children.Perm
    (walked ++ uncounted) := by
  cases v with
  | object r =>
    simp only [statedPart] at hv
    split at hv
    · next hnode =>
      obtain ⟨rfl, rfl⟩ := JsPart.node.inj hv
      simp only [walkedPart, hnode, if_true, childrenOf]
      split
      · exact ⟨_, _, rfl, .refl _⟩
      · exact ⟨_, _, rfl, List.perm_append_comm⟩
    · exact nomatch hv
  | _ => exact nomatch hv

theorem Trees.walked {vs : List JsValue} {refs : List JsRef} {n c : Nat}
    (htrees : Trees (statedPart h) vs refs n c) :
    ∃ refs' n' c', Trees (walkedPart h) vs refs' n' c' ∧ refs'.Subperm refs ∧ n' ≤ n ∧ c' ≤ c := by
  induction htrees with
  | nil => exact ⟨[], 0, 0, .nil, .refl _, Nat.le_refl _, Nat.le_refl _⟩
  | leaf hv _ ih =>
    obtain ⟨refs', n', c', htrees, hrefs, hn, hc⟩ := ih
    exact ⟨refs', n' + 1, _, .leaf (walkedPart_of_statedPart_leaf hv) htrees,
      hrefs, by omega, by omega⟩
  | @node v vs children ref refs n c hv _ ih =>
    obtain ⟨refs', n', c', htrees, hrefs, hn, hc⟩ := ih
    obtain ⟨walked, uncounted, hwalked, hperm⟩ := walkedPart_of_statedPart_node hv
    have hsplit : (children ++ vs).Perm (uncounted ++ (walked ++ vs)) := by
      rw [← List.append_assoc]
      exact (hperm.trans List.perm_append_comm).append_right _
    obtain ⟨refs'', hperm', htrees⟩ := htrees.perm hsplit
    obtain ⟨refs₁, n₁, c₁, refs₂, n₂, c₂, -, hrest, rfl, rfl, rfl⟩ := htrees.of_append rfl
    refine ⟨ref :: refs₂, n₂ + 1, c₂, .node hwalked hrest,
      (List.subperm_cons ref).mpr ?_, by omega, by omega⟩
    exact (List.sublist_append_right refs₁ refs₂).subperm.trans (hperm'.symm.subperm.trans hrefs)

/-- What is within a budget as stated is within it as walked. -/
theorem IsTreeWithin.walked {v : JsValue} {values characters : Nat}
    (hv : IsTreeWithin (statedPart h) v values characters) :
    IsTreeWithin (walkedPart h) v values characters := by
  obtain ⟨refs, n, c, htrees, hnodup, hn, hc⟩ := hv
  obtain ⟨refs', n', c', htrees, hrefs, hn', hc'⟩ := Trees.walked htrees
  obtain ⟨l, hl, hsub⟩ := hrefs
  exact ⟨refs', n', c', htrees, hl.nodup (hnodup.sublist hsub), by omega, by omega⟩

end SerialBroker.Wire
