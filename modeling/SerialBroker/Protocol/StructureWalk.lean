import SerialBroker.Protocol.Limits

/-!
# The walk over a nested structure

The loop of `measureStructure` one value at a time, with its two counters, what it has seen and what
it has not looked at yet. Which of the values is next is a parameter: the loop takes the last one
pushed. Whatever the order, the walk accepts the same structures, those that are trees within the
budget by its own counting.

Its own counting leaves out what hangs on a named property of an array, and takes a `bigint` for a
plain value.
-/

namespace SerialBroker.Wire

variable {h : JsHeap} {budget : StructureBudget}

structure Walk where
  values : Nat
  characters : Nat
  seen : List JsRef
  /-- The end of `pending` first. -/
  pending : List JsValue

def Walk.start (root : JsValue) : Walk := ⟨0, 0, [], [root]⟩

/-- What the loop returns: the part of the budget it ran out of, and the characters. -/
abbrev Measured := Option BudgetExcess × Nat

/-- The body of the loop, for the value it takes and those that are left. -/
def walkValue (h : JsHeap) (budget : StructureBudget) (w : Walk) (value : JsValue)
    (pending : List JsValue) : Walk ⊕ Measured :=
  let values := w.values + 1
  if values > budget.values ∨ value = .function ∨ value = .symbol then
    .inr (some .values, w.characters)
  else
    match value with
    | .string s =>
      if w.characters + s.length > budget.characters then
        .inr (some .characters, w.characters + s.length)
      else .inl { w with values, characters := w.characters + s.length, pending }
    | .object r =>
      if r ∈ w.seen ∨ isTreeNode (h.read r) = false then .inr (some .values, w.characters)
      -- Refused before its children are listed.
      else if values + pending.length + widthOf (h.read r) budget.values > budget.values then
        .inr (some .values, w.characters)
      else .inl ⟨values, w.characters, r :: w.seen, (childrenOf (h.read r)).reverse ++ pending⟩
    | .undefined | .null | .boolean _ | .number _ | .bigint _ | .symbol | .function =>
      .inl { w with values, pending }

/-- At most `steps` times through the loop, taking the first of the values as `order` has them. -/
def walkFor (h : JsHeap) (budget : StructureBudget) (order : Nat → List JsValue → List JsValue) :
    Nat → Walk → Option Measured
  | 0, w => if order w.values w.pending = [] then some (none, w.characters) else none
  | steps + 1, w =>
    match order w.values w.pending with
    | [] => some (none, w.characters)
    | value :: pending =>
      (walkValue h budget w value pending).elim (walkFor h budget order steps) some

/-- The loop's own order: the last value pushed is the next. -/
def lastPushed (_ : Nat) (pending : List JsValue) : List JsValue := pending

/-- What hangs on the named properties of an array. -/
def namedValues (h : JsHeap) (r : JsRef) : List JsValue :=
  if (h.read r).isArray then (h.read r).values else []

/-- What a walk that is within the budget leaves out would be within it as well: no `bigint` is met,
and the named properties of the arrays it met are trees of their own, within what is left. -/
def CountsAll (h : JsHeap) (budget : StructureBudget) (v : JsValue) : Prop :=
  ∀ refs n c, Trees (walkedPart h) [v] refs n c → refs.Nodup → n ≤ budget.values →
    c ≤ budget.characters →
    (∀ i, ¬Reaches (walkedPart h) v (.bigint i)) ∧
      ∃ refs' n' c', Trees (statedPart h) (refs.flatMap (namedValues h)) refs' n' c' ∧
        (refs ++ refs').Nodup ∧
        n + n' ≤ budget.values ∧ c + c' ≤ budget.characters

/-! ### every order ends, and accepts the same -/

theorem Fits.perm {remaining characters characters' : Nat} {seen : List JsRef}
    {pending pending' : List JsValue}
    (hfits : Fits h budget remaining characters seen pending characters')
    (hperm : pending.Perm pending') :
    Fits h budget remaining characters seen pending' characters' := by
  obtain ⟨refs, n, c, htrees, hnodup, hseen, hrest⟩ := hfits
  obtain ⟨refs', hrefs, htrees'⟩ := htrees.perm hperm
  exact ⟨refs', n, c, htrees', hrefs.nodup hnodup,
    fun r hr => hseen r (hrefs.mem_iff.mpr hr), hrest⟩

theorem walkValue_spec {w : Walk} {value : JsValue} {pending : List JsValue} {remaining : Nat}
    (hvalues : w.values + (remaining + 1) = budget.values)
    (hcharacters : w.characters ≤ budget.characters) :
    (∃ w', walkValue h budget w value pending = .inl w' ∧ w'.values = w.values + 1 ∧
      w'.characters ≤ budget.characters ∧
      ∀ c, Fits h budget (remaining + 1) w.characters w.seen (value :: pending) c ↔
        Fits h budget remaining w'.characters w'.seen w'.pending c) ∨
    ∃ excess c', walkValue h budget w value pending = .inr (some excess, c') ∧
      ∀ c, ¬Fits h budget (remaining + 1) w.characters w.seen (value :: pending) c := by
  have hleft : ¬w.values + 1 > budget.values := by omega
  cases value with
  | function => exact .inr ⟨.values, w.characters, by simp [walkValue], fun c => Fits.not_alien rfl⟩
  | symbol => exact .inr ⟨.values, w.characters, by simp [walkValue], fun c => Fits.not_alien rfl⟩
  | string s =>
    by_cases hlong : w.characters + s.length > budget.characters
    · refine .inr ⟨.characters, w.characters + s.length, by simp [walkValue, hleft, hlong],
        fun c hfits => ?_⟩
      rw [Fits.leaf s.length rfl] at hfits
      exact absurd hfits.le_characters (by omega)
    · refine .inl ⟨{ w with
        values := w.values + 1
        characters := w.characters + s.length
        pending },
        by simp [walkValue, hleft, hlong], rfl, Nat.le_of_not_lt hlong, fun c => ?_⟩
      exact Fits.leaf s.length rfl
  | object r =>
    by_cases hbad : r ∈ w.seen ∨ isTreeNode (h.read r) = false
    · refine .inr ⟨.values, w.characters, by simp [walkValue, hleft, hbad], fun c hfits => ?_⟩
      obtain ⟨_, _, hnew, hnode, _, _⟩ := hfits.of_object
      obtain hseen | halien := hbad
      · exact hnew hseen
      · rw [hnode] at halien
        cases halien
    · by_cases hwide : w.values + 1 + pending.length + widthOf (h.read r) budget.values >
        budget.values
      · refine .inr ⟨.values, w.characters, by simp [walkValue, hleft, hbad, hwide],
          fun c hfits => ?_⟩
        obtain ⟨remaining', hsucc, _, _, hwidth, _⟩ := hfits.of_object
        have hle := widthOf_le (h.read r) budget.values
        omega
      · refine .inl ⟨⟨w.values + 1, w.characters, r :: w.seen,
          (childrenOf (h.read r)).reverse ++ pending⟩,
          by simp [walkValue, hleft, hbad, hwide], rfl, hcharacters,
          fun c => ⟨fun hfits => ?_, fun hfits => ?_⟩⟩
        · obtain ⟨remaining', hsucc, _, _, _, hrest⟩ := hfits.of_object
          obtain rfl : remaining = remaining' := Nat.succ.inj hsucc
          exact hrest
        · rw [not_or, Bool.not_eq_false] at hbad
          exact hfits.object hbad.1 hbad.2
  | undefined | null | boolean _ | number _ | bigint _ =>
    refine .inl ⟨{ w with values := w.values + 1, pending }, by simp [walkValue, hleft], rfl,
      hcharacters, fun c => ?_⟩
    exact Fits.leaf 0 rfl

section order

variable {order : Nat → List JsValue → List JsValue} {w : Walk} {steps : Nat}

theorem walkFor_nil (hpending : order w.values w.pending = []) :
    walkFor h budget order steps w = some (none, w.characters) := by
  cases steps with
  | zero => exact if_pos hpending
  | succ steps => simp [walkFor, hpending]

theorem walkFor_cons {value : JsValue} {pending : List JsValue}
    (hpending : order w.values w.pending = value :: pending) :
    walkFor h budget order (steps + 1) w = (walkValue h budget w value pending).elim
    (walkFor h budget order steps) some := by
  simp [walkFor, hpending]

/-- With `remaining` values left in the budget the loop ends within one more step, and accepts what
fits. -/
theorem walkFor_spec (horder : ∀ k l, (order k l).Perm l) {remaining : Nat}
    (hvalues : w.values + remaining = budget.values)
    (hcharacters : w.characters ≤ budget.characters) :
    ∃ measured, walkFor h budget order (remaining + 1) w = some measured ∧
      ∀ c, measured = (none, c) ↔ Fits h budget remaining w.characters w.seen w.pending c := by
  induction remaining generalizing w with
  | zero =>
    have hperm := horder w.values w.pending
    cases hpending : order w.values w.pending with
    | nil =>
      rw [hpending] at hperm
      refine ⟨(none, w.characters), walkFor_nil hpending, fun c => ?_⟩
      rw [← hperm.nil_eq, Fits.nil, Prod.mk.injEq, eq_self, true_and, eq_comm,
        and_iff_right hcharacters]
    | cons value pending =>
      refine ⟨(some .values, w.characters), ?_, fun c => ⟨fun hfalse => ?_, fun hfits => ?_⟩⟩
      · have hfull : w.values + 1 > budget.values := by omega
        rw [walkFor_cons hpending]
        simp [walkValue, hfull]
      · cases hfalse
      · rw [hpending] at hperm
        exact absurd (hfits.perm hperm.symm).le_remaining (by simp)
  | succ remaining ih =>
    have hperm := horder w.values w.pending
    cases hpending : order w.values w.pending with
    | nil =>
      rw [hpending] at hperm
      refine ⟨(none, w.characters), walkFor_nil hpending, fun c => ?_⟩
      rw [← hperm.nil_eq, Fits.nil, Prod.mk.injEq, eq_self, true_and, eq_comm,
        and_iff_right hcharacters]
    | cons value pending =>
      rw [hpending] at hperm
      have hfits : ∀ c, Fits h budget (remaining + 1) w.characters w.seen w.pending c ↔
          Fits h budget (remaining + 1) w.characters w.seen (value :: pending) c :=
        fun c => ⟨fun hfits => hfits.perm hperm.symm, fun hfits => hfits.perm hperm⟩
      obtain ⟨w', hbody, hvalues', hcharacters', hstep⟩ | ⟨excess, c', hbody, hnot⟩ :=
        @walkValue_spec h budget w value pending remaining hvalues hcharacters
      · obtain ⟨measured, hwalk, hmeasured⟩ := ih (w := w') (by omega) hcharacters'
        refine ⟨measured, ?_, fun c => ?_⟩
        · rw [walkFor_cons hpending, hbody]
          exact hwalk
        · rw [hmeasured c, hfits c, hstep c]
      · refine ⟨(some excess, c'), ?_, fun c => ⟨fun hfalse => ?_, fun hfalse => ?_⟩⟩
        · rw [walkFor_cons hpending, hbody]
          rfl
        · cases hfalse
        · exact absurd ((hfits c).mp hfalse) (hnot c)

end order

/-- The loop of `measureStructure` is the walk in its own order. -/
theorem walkFor_lastPushed {remaining : Nat} {w : Walk}
    (hvalues : w.values + remaining = budget.values) :
    walkFor h budget lastPushed
    (remaining + 1) w = some (measureLoop h budget remaining w.characters w.seen w.pending) := by
  induction remaining generalizing w with
  | zero =>
    obtain ⟨values, characters, seen, pending⟩ := w
    replace hvalues : values + 0 = budget.values := hvalues
    cases pending with
    | nil => rfl
    | cons value pending =>
      have hfull : values + 1 > budget.values := by omega
      rw [walkFor_cons (rfl : lastPushed values (value :: pending) = value :: pending)]
      simp [walkValue, hfull, measureLoop]
  | succ remaining ih =>
    obtain ⟨values, characters, seen, pending⟩ := w
    replace hvalues : values + (remaining + 1) = budget.values := hvalues
    cases pending with
    | nil => rfl
    | cons value pending =>
      have hleft : ¬values + 1 > budget.values := by omega
      have hnext := fun characters seen pending =>
        ih (w := ⟨values + 1, characters, seen, pending⟩)
          (show values + 1 + remaining = budget.values by omega)
      rw [walkFor_cons (rfl : lastPushed values (value :: pending) = value :: pending)]
      cases value with
      | function | symbol => simp [walkValue, measureLoop]
      | string s =>
        by_cases hlong : characters + s.length > budget.characters
        · simp [walkValue, measureLoop, hleft, hlong]
        · simpa [walkValue, measureLoop, hleft, hlong]
            using hnext (characters + s.length) seen pending
      | object r =>
        by_cases hbad : r ∈ seen ∨ isTreeNode (h.read r) = false
        · simp [walkValue, measureLoop, hleft, hbad]
        · have hwide : values + 1 + pending.length + widthOf (h.read r) budget.values >
              budget.values ↔
              pending.length + widthOf (h.read r) budget.values > remaining := by omega
          by_cases hfull : pending.length + widthOf (h.read r) budget.values > remaining
          · simp [walkValue, measureLoop, hleft, hbad, hwide, hfull]
          · simpa [walkValue, measureLoop, hleft, hbad, hwide, hfull] using
              hnext characters (r :: seen) ((childrenOf (h.read r)).reverse ++ pending)
      | undefined | null | boolean _ | number _ | bigint _ =>
        simpa [walkValue, measureLoop, hleft] using hnext characters seen pending

/-! ### what the walk leaves out -/

theorem statedPart_object (r : JsRef) : statedPart h (.object r) =
    if isTreeNode (h.read r) then .node r (childrenOf (h.read r) ++ namedValues h r)
      else .alien := by
  rw [statedPart, childrenOf, namedValues]
  split
  · split
    · rfl
    · next harray =>
      have hnone : (h.read r).elements = [] := by
        unfold JsObject.isArray at harray
        unfold JsObject.elements
        cases hkind : (h.read r).kind <;> simp_all
      rw [hnone, List.nil_append, List.append_nil]
  · rfl

theorem walkedPart_node {v : JsValue} {r : JsRef} {children : List JsValue}
    (hv : walkedPart h v = .node r children) :
    v = .object r ∧ isTreeNode (h.read r) = true ∧ children = childrenOf (h.read r) := by
  cases v with
  | object r' =>
    rw [walkedPart] at hv
    split at hv
    case isTrue hnode =>
      obtain ⟨rfl, rfl⟩ := JsPart.node.inj hv
      exact ⟨rfl, hnode, rfl⟩
    case isFalse => cases hv
  | _ => cases hv

theorem statedPart_leaf {v : JsValue} {text : Nat} (hv : walkedPart h v = .leaf text)
    (hbigint : ∀ i, v ≠ .bigint i) :
    statedPart h v = .leaf text := by
  cases v with
  | object r =>
    rw [walkedPart] at hv
    split at hv <;> cases hv
  | bigint i => exact absurd rfl (hbigint i)
  | function | symbol => cases hv
  | undefined | null | boolean _ | number _ | string _ => exact hv

/-- With what the walk left out, the values are trees as stated. -/
theorem Trees.complete {vs : List JsValue} {refs refs' : List JsRef} {n n' c c' : Nat}
    (htrees : Trees (walkedPart h) vs refs n c)
    (hbigint : ∀ v ∈ vs, ∀ i, ¬Reaches (walkedPart h) v (.bigint i))
    (hrest : Trees (statedPart h) (refs.flatMap (namedValues h)) refs' n' c') :
    ∃ all, all.Perm (refs ++ refs') ∧ Trees (statedPart h) vs all (n + n') (c + c') := by
  induction htrees generalizing refs' n' c' with
  | nil =>
    cases hrest
    exact ⟨[], .refl _, .nil⟩
  | @leaf v vs refs n c text hv _ ih =>
    obtain ⟨all, hall, htrees⟩ := ih (fun u hu => hbigint u (List.mem_cons_of_mem _ hu)) hrest
    have hv' := statedPart_leaf hv fun i heq => hbigint v List.mem_cons_self i (heq ▸ .refl v)
    refine ⟨all, hall, ?_⟩
    rw [show n + 1 + n' = n + n' + 1 by omega, show c + text + c' = c + c' + text by omega]
    exact .leaf hv' htrees
  | @node v vs children r refs n c hv _ ih =>
    obtain ⟨rfl, hnode, rfl⟩ := walkedPart_node hv
    rw [List.flatMap_cons] at hrest
    obtain ⟨refs₁, n₁, c₁, refs₂, n₂, c₂, hnamed, hothers, rfl, rfl, rfl⟩ := hrest.of_append rfl
    obtain ⟨all, hall, htrees⟩ := ih (fun u hu i hreach => by
      obtain hchild | hold := List.mem_append.mp hu
      · exact hbigint _ List.mem_cons_self i (.child hv hchild hreach)
      · exact hbigint u (List.mem_cons_of_mem _ hold) i hreach) hothers
    have hsplit : (namedValues h r ++ (childrenOf (h.read r) ++ vs)).Perm
        (childrenOf (h.read r) ++ namedValues h r ++ vs) := by
      rw [← List.append_assoc]
      exact List.perm_append_comm.append_right _
    obtain ⟨all', hall', htrees'⟩ := (hnamed.append htrees).perm hsplit
    refine ⟨r :: all', ?_, ?_⟩
    · refine List.Perm.cons r (hall'.symm.trans ?_)
      calc refs₁ ++ all
          |>.Perm (refs₁ ++ (refs ++ refs₂)) := hall.append_left _
        _ |>.Perm (refs ++ (refs₁ ++ refs₂)) := by
          rw [← List.append_assoc, ← List.append_assoc]
          exact List.perm_append_comm.append_right _
    · rw [show n + 1 + (n₁ + n₂) = n₁ + (n + n₂) + 1 by omega,
        show c + (c₁ + c₂) = c₁ + (c + c₂) by omega]
      exact .node (by rw [statedPart_object, if_pos hnode]) htrees'

/-- What are trees as stated is what the walk takes apart, and what it leaves out. -/
theorem Trees.leave {vs : List JsValue} {all : List JsRef} {n c : Nat}
    (htrees : Trees (statedPart h) vs all n c) :
    ∃ refs n₁ c₁ refs' n₂ c₂, Trees (walkedPart h) vs refs n₁ c₁ ∧
      Trees (statedPart h) (refs.flatMap (namedValues h)) refs' n₂ c₂ ∧ all.Perm (refs ++ refs') ∧
        n = n₁ + n₂ ∧ c = c₁ + c₂ := by
  induction n using Nat.strongRecOn generalizing vs all c with
  | ind n ih =>
    cases htrees with
    | nil => exact ⟨[], 0, 0, [], 0, 0, .nil, .nil, .refl _, rfl, rfl⟩
    | @leaf v vs _ n c text hv hrest =>
      obtain ⟨refs, n₁, c₁, refs', n₂, c₂, hwalked, hstated, hall, rfl, rfl⟩ :=
        ih n (Nat.lt_succ_self n) hrest
      exact ⟨refs, n₁ + 1, c₁ + text, refs', n₂, c₂,
        .leaf (walkedPart_of_statedPart_leaf hv) hwalked, hstated, hall,
        by omega, by omega⟩
    | @node v vs children r all n _ hv hrest =>
      obtain ⟨r', rfl⟩ : ∃ r', v = .object r' := by
        cases v with
        | object r' => exact ⟨r', rfl⟩
        | _ => cases hv
      rw [statedPart_object] at hv
      split at hv
      case isFalse => cases hv
      case isTrue hnode =>
        obtain ⟨rfl, rfl⟩ := JsPart.node.inj hv
        have hsplit : (childrenOf (h.read r') ++ namedValues h r' ++ vs).Perm
            (namedValues h r' ++ (childrenOf (h.read r') ++ vs)) := by
          rw [← List.append_assoc]
          exact List.perm_append_comm.append_right _
        obtain ⟨all', hall', htrees⟩ := hrest.perm hsplit
        obtain ⟨refs₁, n₁, c₁, refs₂, n₂, c₂, hnamed, hothers, rfl, rfl, rfl⟩ :=
          htrees.of_append rfl
        obtain ⟨refs, m₁, d₁, refs', m₂, d₂, hwalked, hstated, hall, rfl, rfl⟩ :=
          ih n₂ (by omega) hothers
        refine ⟨r' :: refs, m₁ + 1, d₁, refs₁ ++ refs', n₁ + m₂, c₁ + d₂,
          .node (by rw [walkedPart, if_pos hnode]) hwalked,
          hnamed.append hstated, List.Perm.cons r' (hall'.trans ?_), by omega, by omega⟩
        calc refs₁ ++ refs₂
            |>.Perm (refs₁ ++ (refs ++ refs')) := hall.append_left _
          _ |>.Perm (refs ++ (refs₁ ++ refs')) := by
            rw [← List.append_assoc, ← List.append_assoc]
            exact List.perm_append_comm.append_right _

theorem reaches_stated {v u : JsValue} (hreach : Reaches (walkedPart h) v u) :
    Reaches (statedPart h) v u := by
  induction hreach with
  | refl v => exact .refl v
  | @child v w u r children hv hw _ ih =>
    obtain ⟨rfl, hnode, rfl⟩ := walkedPart_node hv
    exact .child (by rw [statedPart_object, if_pos hnode]) (List.mem_append_left _ hw) ih

/-- The walk's own counting is right exactly where what it leaves out is within the budget too. -/
theorem countsAll_iff (h : JsHeap) (v : JsValue) (budget : StructureBudget) :
    (IsTreeWithin (walkedPart h) v budget.values budget.characters ↔
      IsTreeWithin (statedPart h) v budget.values budget.characters) ↔
      CountsAll h budget v := by
  constructor
  · intro hiff refs n c htrees hnodup hn hc
    obtain ⟨all, m, d, hstated, hall, hm, hd⟩ := hiff.mp ⟨refs, n, c, htrees, hnodup, hn, hc⟩
    refine ⟨fun i hreach => hstated.not_alien List.mem_cons_self (reaches_stated hreach) rfl, ?_⟩
    obtain ⟨refs₁, n₁, c₁, refs', n₂, c₂, hwalked, hrest, hperm, rfl, rfl⟩ := Trees.leave hstated
    obtain ⟨rfl, rfl, rfl⟩ := htrees.unique hwalked
    exact ⟨refs', n₂, c₂, hrest, hperm.nodup hall, hm, hd⟩
  · refine fun hcounts => ⟨fun hwalked => ?_, IsTreeWithin.walked⟩
    obtain ⟨refs, n, c, htrees, hnodup, hn, hc⟩ := hwalked
    obtain ⟨hbigint, refs', n', c', hrest, hdistinct, hn', hc'⟩ :=
      hcounts refs n c htrees hnodup hn hc
    obtain ⟨all, hall, hstated⟩ :=
      Trees.complete htrees (fun u hu => by rw [List.mem_singleton.mp hu]; exact hbigint) hrest
    exact ⟨all, n + n', c + c', hstated, hall.symm.nodup hdistinct, hn', hc'⟩

/-! ### the walk and its definition -/

/-- What is said of the walk over one structure: it ends one step after the budget at the latest,
accepts the trees of plain values within the budget, whatever the order, and refuses none of them
for its width. -/
structure WalksAsStated (h : JsHeap) (v : JsValue) (budget : StructureBudget) : Prop where
  ends : walkFor h budget lastPushed (budget.values + 1)
    (.start v) = some (measureStructure h v budget)
  accepts : exceedsStructureBudget h v budget = none ↔
    IsTreeWithin (statedPart h) v budget.values budget.characters
  anyOrder : ∀ order : Nat → List JsValue → List JsValue, (∀ k l, (order k l).Perm l) →
    ∃ measured, walkFor h budget order (budget.values + 1) (.start v) = some measured ∧
      (measured.1 = none ↔ exceedsStructureBudget h v budget = none)
  notRefusedEarly : IsTreeWithin (statedPart h) v budget.values budget.characters →
    exceedsStructureBudget h v budget = none

/-- **The walk equals its recursive definition** exactly where what it leaves out is within the
budget too. -/
theorem walksAsStated_iff (h : JsHeap) (v : JsValue) (budget : StructureBudget) :
    WalksAsStated h v budget ↔ CountsAll h budget v := by
  rw [← countsAll_iff, ← exceedsStructureBudget_iff]
  refine ⟨WalksAsStated.accepts, fun haccepts =>
    ⟨?_, haccepts, fun order horder => ?_, haccepts.mpr⟩⟩
  · exact walkFor_lastPushed (w := .start v) (Nat.zero_add _)
  · obtain ⟨measured, hwalk, hmeasured⟩ :=
      walkFor_spec (h := h) horder (w := .start v) (Nat.zero_add _) (Nat.zero_le _)
    obtain ⟨own, hown, hmeasured'⟩ :=
        walkFor_spec (h := h) (fun _ _ => .refl _ : ∀ k l, (lastPushed k l).Perm l) (w := .start v)
      (Nat.zero_add _) (Nat.zero_le _)
    have hsame : own = measureStructure h v budget :=
      Option.some.inj (hown.symm.trans (walkFor_lastPushed (w := .start v) (Nat.zero_add _)))
    refine ⟨measured, hwalk, fun hnone => ?_, fun hnone => ?_⟩
    · have hfits := (hmeasured measured.2).mp (Prod.ext hnone rfl)
      rw [exceedsStructureBudget, ← hsame, (hmeasured' measured.2).mpr hfits]
    · have hfits := (hmeasured' own.2).mp (Prod.ext (by rw [hsame]; exact hnone) rfl)
      rw [(hmeasured own.2).mpr hfits]

/-- An array without elements whose one named property leads to a map. -/
def namedMap : JsHeap := [⟨.array [], [(js "more", .object 1)]⟩, ⟨.other [], []⟩]

theorem not_walksAsStated :
    ¬WalksAsStated namedMap (.object 0) ⟨maxErrorValues, maxErrorCharacters⟩ := by
  intro hwalks
  obtain ⟨refs, n, c, htrees, _⟩ := hwalks.accepts.mp rfl
  have hreach : Reaches (statedPart namedMap) (.object 0) (.object 1) :=
    .child rfl (List.mem_singleton_self (JsValue.object 1)) (.refl _)
  exact htrees.not_alien List.mem_cons_self hreach rfl

end SerialBroker.Wire
