import Mathlib.Data.List.ReduceOption
import Mathlib.Data.Rat.Defs

/-!
# Values of JavaScript, as structured cloning carries them

A value is a primitive or a reference to an object of a heap, so that objects may be shared and may
contain each other. A string is its UTF-16 code units. A number is a rational, an infinity or `NaN`:
that a double is rounded, and the sign of zero, make no difference to what is said here. The
properties of an object are its own enumerable ones, under names, in the order `for (const key in
object)` lists them; the elements of an array are apart from them, a hole being `none`.

A reference the heap does not have reads as an object of no known kind, with nothing in it.
-/

abbrev JsString := List UInt16

/-- The code units of an ASCII literal. -/
def js (literal : String) : JsString := literal.toList.map fun c => UInt16.ofNat c.toNat

inductive JsNumber
  | nan
  | infinity (isNegative : Bool)
  | finite (value : ℚ)
  deriving DecidableEq

namespace JsNumber

/-- `Number.isFinite`. -/
def isFinite : JsNumber → Bool
  | finite _ => true
  | nan | infinity _ => false

/-- `Number.isInteger`. -/
def isInteger : JsNumber → Bool
  | finite value => value.den = 1
  | nan | infinity _ => false

/-- `value >= bound`. -/
def isAtLeast (bound : ℚ) : JsNumber → Bool
  | finite value => bound ≤ value
  | infinity isNegative => !isNegative
  | nan => false

/-- `value <= bound`. -/
def isAtMost (bound : ℚ) : JsNumber → Bool
  | finite value => value ≤ bound
  | infinity isNegative => isNegative
  | nan => false

/-- `Number.isSafeInteger`. -/
def isSafeInteger (n : JsNumber) : Bool :=
  n.isInteger && n.isAtLeast (-9007199254740991) && n.isAtMost 9007199254740991

end JsNumber

abbrev JsRef := Nat

inductive JsValue
  | undefined
  | null
  | boolean (value : Bool)
  | number (value : JsNumber)
  | bigint (value : Int)
  | string (value : JsString)
  | symbol
  | function
  | object (ref : JsRef)
  deriving DecidableEq

/-- A view of bytes, with what it is a view of. -/
structure Uint8Array where
  bytes : List UInt8
  byteOffset : Nat
  bufferBytes : Nat
  isBufferShared : Bool
  deriving DecidableEq

namespace Uint8Array

/-- A view of the whole of a buffer of its own. -/
def ofBytes (bytes : List UInt8) : Uint8Array := ⟨bytes, 0, bytes.length, false⟩

def spansItsBuffer (view : Uint8Array) : Bool :=
  view.byteOffset = 0 && !view.isBufferShared && view.bufferBytes = view.bytes.length

/-- `bytes.slice()`. -/
def slice (view : Uint8Array) : Uint8Array := ofBytes view.bytes

theorem eq_ofBytes {view : Uint8Array} (h : view.spansItsBuffer = true) :
    view = ofBytes view.bytes := by
  simp only [spansItsBuffer, Bool.and_eq_true, decide_eq_true_eq, Bool.not_eq_true'] at h
  obtain ⟨⟨hoffset, hshared⟩, hbuffer⟩ := h
  cases view
  simp_all [ofBytes]

theorem spansItsBuffer_ofBytes (bytes : List UInt8) :
    (ofBytes bytes).spansItsBuffer = true := by simp [spansItsBuffer, ofBytes]

end Uint8Array

/-- What an object is beside its properties. -/
inductive JsKind
  | plain
  | array (elements : List (Option JsValue))
  | uint8Array (view : Uint8Array)
  | arrayBuffer (bytes : List UInt8)
  /-- A map, a set, a regular expression, an error, a date, a boxed value: with what it keeps apart
  from its properties. -/
  | other (contents : List JsValue)
  deriving DecidableEq

structure JsObject where
  kind : JsKind
  properties : List (JsString × JsValue)
  deriving DecidableEq

namespace JsObject

/-- `object[name]`. -/
def get (o : JsObject) (name : JsString) : JsValue := (o.properties.lookup name).getD .undefined

/-- `Array.isArray`. -/
def isArray (o : JsObject) : Bool :=
  match o.kind with
  | .array _ => true
  | .plain | .uint8Array _ | .arrayBuffer _ | .other _ => false

/-- What `for (const entry of array)` reads: a hole is read as `undefined`. -/
def elements (o : JsObject) : List JsValue :=
  match o.kind with
  | .array elements => elements.map fun element => element.getD .undefined
  | .plain | .uint8Array _ | .arrayBuffer _ | .other _ => []

/-- What `Array.prototype.every` visits: no hole. -/
def present (o : JsObject) : List JsValue :=
  match o.kind with
  | .array elements => elements.reduceOption
  | .plain | .uint8Array _ | .arrayBuffer _ | .other _ => []

/-- What is in an object that is neither plain nor an array, such as the entries of a map. -/
def contents (o : JsObject) : List JsValue :=
  match o.kind with
  | .other contents => contents
  | .plain | .array _ | .uint8Array _ | .arrayBuffer _ => []

def values (o : JsObject) : List JsValue := o.properties.map Prod.snd

end JsObject

abbrev JsHeap := List JsObject

namespace JsHeap

variable {h h' : JsHeap} {r : JsRef} {o : JsObject}

def read (h : JsHeap) (r : JsRef) : JsObject := (h[r]?).getD ⟨.other [], []⟩

/-- The object a value refers to. -/
def object? (h : JsHeap) : JsValue → Option JsObject
  | .object r => some (h.read r)
  | _ => none

/-- Puts an object in the heap, under the reference `h.length`. -/
def alloc (h : JsHeap) (o : JsObject) : JsHeap := h ++ [o]

@[simp] theorem read_alloc_self : (h.alloc o).read h.length = o := by simp [alloc, read]

theorem read_alloc_of_lt (hr : r < h.length) : (h.alloc o).read r = h.read r := by
  simp [alloc, read, List.getElem?_append_left hr]

theorem length_alloc : (h.alloc o).length = h.length + 1 := by simp [alloc]

/-- Puts an object in the heap and refers to it. -/
def put (h : JsHeap) (o : JsObject) : JsHeap × JsValue := (h.alloc o, .object h.length)

@[simp] theorem object?_put : (h.put o).1.object? (h.put o).2 = some o :=
  congrArg some read_alloc_self

/-- Everything that can be read of one heap is in the other. -/
def Extends (h h' : JsHeap) : Prop := ∀ r, h.read r ≠ ⟨.other [], []⟩ → h'.read r = h.read r

theorem Extends.trans {h'' : JsHeap} (hh : h.Extends h') (hh' : h'.Extends h'') :
    h.Extends h'' := by
  intro r hr
  have hread := hh r hr
  rw [← hread]
  exact hh' r (hread ▸ hr)

theorem extends_alloc (h : JsHeap) (o : JsObject) : h.Extends (h.alloc o) := by
  intro r hr
  refine read_alloc_of_lt (Nat.lt_of_not_le fun hle => hr ?_)
  rw [read, List.getElem?_eq_none hle]
  rfl

theorem extends_put (h : JsHeap) (o : JsObject) : h.Extends (h.put o).1 := extends_alloc h o

end JsHeap

/-! ### trees of values -/

/-- What a walk over values makes of one: text of some length, the children of an object, or nothing
it can take. -/
inductive JsPart
  | leaf (characters : Nat)
  | node (ref : JsRef) (children : List JsValue)
  | alien
  deriving DecidableEq

/-- The values taken apart into trees, from the front: the objects met, how many values they are
made of, and how much text. -/
inductive Trees (part : JsValue → JsPart) : List JsValue → List JsRef → Nat → Nat → Prop
  | nil : Trees part [] [] 0 0
  | leaf {v : JsValue} {vs : List JsValue} {refs : List JsRef} {values characters text : Nat}
      (hv : part v = .leaf text) :
    Trees part vs refs values characters → Trees part (v :: vs) refs (values + 1)
    (characters + text)
  | node {v : JsValue} {vs children : List JsValue} {ref : JsRef} {refs : List JsRef}
      {values characters : Nat}
    (hv : part v = .node ref children) :
    Trees part (children ++ vs) refs values characters → Trees part (v :: vs) (ref :: refs)
    (values + 1) characters

/-- A value is one tree, without a cycle and without an object met twice, of at most this many
values and characters. -/
def IsTreeWithin (part : JsValue → JsPart) (v : JsValue) (values characters : Nat) : Prop :=
  ∃ refs n c, Trees part [v] refs n c ∧ refs.Nodup ∧ n ≤ values ∧ c ≤ characters

/-- What a value is made of, however deep. -/
inductive Reaches (part : JsValue → JsPart) : JsValue → JsValue → Prop
  | refl (v : JsValue) : Reaches part v v
  | child {v w u : JsValue} {ref : JsRef} {children : List JsValue}
      (hv : part v = .node ref children) (hw : w ∈ children) :
    Reaches part w u → Reaches part v u

namespace Trees

variable {part part' : JsValue → JsPart} {vs ws : List JsValue} {refs refs' : List JsRef}
  {n n' c c' : Nat}

theorem length_le (h : Trees part vs refs n c) : vs.length ≤ n := by
  induction h with
  | nil => exact Nat.le_refl _
  | leaf _ _ ih => exact Nat.succ_le_succ ih
  | node _ _ ih =>
    rw [List.length_append] at ih
    simp only [List.length_cons]
    omega

/-- A part read once stays as it is where more can be read. -/
theorem mono (hpart : ∀ v, part v ≠ .alien → part' v = part v) (h : Trees part vs refs n c) :
    Trees part' vs refs n c := by
  induction h with
  | nil => exact .nil
  | leaf hv _ ih => exact .leaf ((hpart _ (by rw [hv]; nofun)).trans hv) ih
  | node hv _ ih => exact .node ((hpart _ (by rw [hv]; nofun)).trans hv) ih

theorem append (h : Trees part vs refs n c) (h' : Trees part ws refs' n' c') :
    Trees part (vs ++ ws) (refs ++ refs') (n + n') (c + c') := by
  induction h with
  | nil => simpa using h'
  | @leaf v vs refs n c text hv _ ih =>
    rw [Nat.add_right_comm n 1 n', Nat.add_right_comm c text c']
    exact .leaf hv ih
  | @node v vs children ref refs n c hv _ ih =>
    rw [Nat.add_right_comm n 1 n']
    exact .node hv (List.append_assoc .. ▸ ih)

theorem of_append {us : List JsValue} (h : Trees part us refs n c) : ∀ {vs}, us = vs ++ ws →
    ∃ refs₁ n₁ c₁ refs₂ n₂ c₂, Trees part vs refs₁ n₁ c₁ ∧ Trees part ws refs₂ n₂ c₂ ∧
      refs = refs₁ ++ refs₂ ∧ n = n₁ + n₂ ∧ c = c₁ + c₂ := by
  induction h with
  | nil =>
    intro vs hus
    obtain ⟨rfl, rfl⟩ := List.append_eq_nil_iff.mp hus.symm
    exact ⟨[], 0, 0, [], 0, 0, .nil, .nil, rfl, rfl, rfl⟩
  | @leaf v us refs n c text hv hrest ih =>
    intro vs hus
    cases vs with
    | nil =>
      obtain rfl : v :: us = ws := hus
      exact ⟨[], 0, 0, refs, n + 1, c + text, .nil, .leaf hv hrest, rfl, by omega, by omega⟩
    | cons w vs =>
      obtain ⟨rfl, htail⟩ : v = w ∧ us = vs ++ ws := List.cons.inj hus
      obtain ⟨refs₁, n₁, c₁, refs₂, n₂, c₂, h₁, h₂, rfl, rfl, rfl⟩ := ih htail
      exact ⟨refs₁, n₁ + 1, c₁ + text, refs₂, n₂, c₂, .leaf hv h₁, h₂, rfl, by omega, by omega⟩
  | @node v us children ref refs n c hv hrest ih =>
    intro vs hus
    cases vs with
    | nil =>
      obtain rfl : v :: us = ws := hus
      exact ⟨[], 0, 0, ref :: refs, n + 1, c, .nil, .node hv hrest, rfl, by omega, by omega⟩
    | cons w vs =>
      obtain ⟨rfl, rfl⟩ : v = w ∧ us = vs ++ ws := List.cons.inj hus
      obtain ⟨refs₁, n₁, c₁, refs₂, n₂, c₂, h₁, h₂, rfl, rfl, rfl⟩ := ih (List.append_assoc ..).symm
      exact ⟨ref :: refs₁, n₁ + 1, c₁, refs₂, n₂, c₂, .node hv h₁, h₂, rfl, by omega, rfl⟩

theorem of_cons {v : JsValue} (h : Trees part (v :: vs) refs n c) :
    ∃ refs₁ n₁ c₁ refs₂ n₂ c₂, Trees part [v] refs₁ n₁ c₁ ∧ Trees part vs refs₂ n₂ c₂ ∧
      refs = refs₁ ++ refs₂ ∧ n = n₁ + n₂ ∧ c = c₁ + c₂ :=
      h.of_append (show v :: vs = [v] ++ vs from rfl)

/-- The order in which the trees are taken apart makes no difference. -/
theorem perm (hperm : vs.Perm ws) :
    ∀ {refs n c}, Trees part vs refs n c → ∃ refs', refs.Perm refs' ∧ Trees part ws refs' n c := by
  induction hperm with
  | nil => exact fun h => ⟨_, .refl _, h⟩
  | @cons v vs ws _ ih =>
    intro refs n c h
    obtain ⟨refs₁, n₁, c₁, refs₂, n₂, c₂, h₁, h₂, rfl, rfl, rfl⟩ := h.of_cons
    obtain ⟨refs', hrefs, h'⟩ := ih h₂
    exact ⟨refs₁ ++ refs', hrefs.append_left _, h₁.append h'⟩
  | swap v w vs =>
    intro refs n c h
    obtain ⟨refs₁, n₁, c₁, refs₂, n₂, c₂, h₁, h₂, rfl, rfl, rfl⟩ := h.of_cons
    obtain ⟨refs₃, n₃, c₃, refs₄, n₄, c₄, h₃, h₄, rfl, rfl, rfl⟩ := h₂.of_cons
    refine ⟨refs₃ ++ (refs₁ ++ refs₄), ?_, ?_⟩
    · rw [← List.append_assoc, ← List.append_assoc]
      exact List.perm_append_comm.append_right _
    · have h' := h₃.append (h₁.append h₄)
      rw [show n₁ + (n₃ + n₄) = n₃ + (n₁ + n₄) by omega,
        show c₁ + (c₃ + c₄) = c₃ + (c₁ + c₄) by omega]
      exact h'
  | trans _ _ ih ih' =>
    intro refs n c h
    obtain ⟨refs', hrefs, h'⟩ := ih h
    obtain ⟨refs'', hrefs', h''⟩ := ih' h'
    exact ⟨refs'', hrefs.trans hrefs', h''⟩

theorem unique (h : Trees part vs refs n c) :
    ∀ {refs' n' c'}, Trees part vs refs' n' c' → refs = refs' ∧ n = n' ∧ c = c' := by
  induction h with
  | nil =>
    intro refs' n' c' h'
    cases h'
    exact ⟨rfl, rfl, rfl⟩
  | leaf hv _ ih =>
    intro refs' n' c' h'
    cases h' with
    | leaf hv' h' =>
      obtain ⟨rfl, rfl, rfl⟩ := ih h'
      obtain rfl := JsPart.leaf.inj (hv.symm.trans hv')
      exact ⟨rfl, rfl, rfl⟩
    | node hv' => exact nomatch hv.symm.trans hv'
  | node hv _ ih =>
    intro refs' n' c' h'
    cases h' with
    | leaf hv' => exact nomatch hv.symm.trans hv'
    | node hv' h' =>
      obtain ⟨rfl, rfl⟩ := JsPart.node.inj (hv.symm.trans hv')
      obtain ⟨rfl, rfl, rfl⟩ := ih h'
      exact ⟨rfl, rfl, rfl⟩

/-- Everything the trees are made of is a part of them. -/
theorem not_alien (h : Trees part vs refs n c) {v u : JsValue} (hv : v ∈ vs)
    (hreach : Reaches part v u) : part u ≠ .alien := by
  induction h generalizing v with
  | nil => exact absurd hv List.not_mem_nil
  | leaf hleaf _ ih =>
    rcases List.mem_cons.mp hv with rfl | hv
    · cases hreach with
      | refl => rw [hleaf]; nofun
      | child hnode => exact nomatch hleaf.symm.trans hnode
    · exact ih hv hreach
  | node hnode _ ih =>
    rcases List.mem_cons.mp hv with rfl | hv
    · cases hreach with
      | refl => rw [hnode]; nofun
      | child hnode' hw hreach =>
        obtain ⟨-, rfl⟩ := JsPart.node.inj (hnode.symm.trans hnode')
        exact ih (List.mem_append_left _ hw) hreach
    · exact ih (List.mem_append_right _ hv) hreach

end Trees

theorem IsTreeWithin.mono {part part' : JsValue → JsPart} {v : JsValue} {values characters : Nat}
    (hpart : ∀ v, part v ≠ .alien → part' v = part v) (h : IsTreeWithin part v values characters) :
    IsTreeWithin part' v values characters := by
  obtain ⟨refs, n, c, htrees, hrest⟩ := h
  exact ⟨refs, n, c, htrees.mono hpart, hrest⟩
