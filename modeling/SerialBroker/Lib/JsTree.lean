import Mathlib.Data.Rat.Cast.Order
import SerialBroker.Lib.JsValues

/-!
# Values of JavaScript without sharing

What `JSON.parse` returns, and any other value of which every property is read once: an object is
the values that reading its properties gives. A property an object does not have reads as
`undefined`.

A text is what `JSON.parse` makes of it, so `JSON.stringify` is what a value has become once it is
parsed again.
-/

inductive JsTree
  | undefined
  | null
  | boolean (value : Bool)
  | number (value : JsNumber)
  | bigint (value : Int)
  | string (value : JsString)
  | symbol
  | function
  | array (elements : List JsTree)
  | object (properties : List (JsString × JsTree))

namespace JsTree

def ofNat (n : ℕ) : JsTree := .number (.finite n)

def isUndefined : JsTree → Bool
  | undefined => true
  | _ => false

/-- What `Array.prototype.includes` compares numbers and strings by. -/
def isSame : JsTree → JsTree → Bool
  | number m, number n => m = n
  | string s, string t => s = t
  | _, _ => false

/-- What `JSON.stringify` leaves out of an object. -/
def isOmitted : JsTree → Bool
  | undefined | symbol | function => true
  | _ => false

mutual

/-- `JSON.parse(JSON.stringify(value))`, of a value that is not left out. -/
def throughJson : JsTree → JsTree
  | number n => if n.isFinite then number n else null
  | array elements => array (elementsThroughJson elements)
  | object properties => object (propertiesThroughJson properties)
  | value => value

def elementsThroughJson : List JsTree → List JsTree
  | [] => []
  | element :: elements =>
    (if element.isOmitted then null else element.throughJson) :: elementsThroughJson elements

def propertiesThroughJson : List (JsString × JsTree) → List (JsString × JsTree)
  | [] => []
  | (name, value) :: properties =>
    if value.isOmitted then propertiesThroughJson properties
    else (name, value.throughJson) :: propertiesThroughJson properties

end

end JsTree

/-- The own properties of an object, read by name. -/
abbrev JsFields := List (JsString × JsTree)

/-- `fields[name]`. -/
def JsFields.get (fields : JsFields) (name : JsString) : JsTree :=
  (fields.lookup name).getD .undefined

/-- A stored text, by what `JSON.parse` makes of it. -/
inductive JsonText
  | malformed
  | of (value : JsTree)

namespace JsonText

def parse : JsonText → Option JsTree
  | malformed => none
  | of value => some value

/-- `JSON.stringify`. -/
def stringify (value : JsTree) : JsonText := of value.throughJson

@[simp] theorem parse_stringify (value : JsTree) :
    (stringify value).parse = some value.throughJson := rfl

end JsonText

theorem JsTree.elementsThroughJson_strings (names : List JsString) :
    elementsThroughJson (names.map JsTree.string) = names.map JsTree.string := by
  induction names with
  | nil => simp [elementsThroughJson]
  | cons name names ih => simp [elementsThroughJson, isOmitted, throughJson, ih]

namespace JsTree

/-- What a property of this value reads as in the parsed text. -/
def reread (value : JsTree) : JsTree := if value.isOmitted then undefined else value.throughJson

theorem get_cons (key name : JsString) (value : JsTree) (fields : JsFields) :
    JsFields.get ((key, value) :: fields) name =
      if name = key then value else JsFields.get fields name := by
  by_cases hname : name = key
  · rw [if_pos hname, JsFields.get, List.lookup_cons, hname, beq_self_eq_true]
    rfl
  · rw [if_neg hname, JsFields.get, List.lookup_cons, beq_eq_false_iff_ne.mpr hname]
    rfl

theorem get_of_notMem {fields : JsFields} {name : JsString} (h : name ∉ fields.map Prod.fst) :
    JsFields.get fields name = undefined := by
  have hlookup : fields.lookup name = none := List.lookup_eq_none_iff.mpr fun field hfield =>
    bne_iff_ne.mpr fun hsame => h (hsame ▸ List.mem_map_of_mem hfield)
  rw [JsFields.get, hlookup]
  rfl

/-- A property reads as what became of its value; one that was left out reads as `undefined`, as it
would have before. -/
theorem get_propertiesThroughJson {fields : JsFields} (hnodup : (fields.map Prod.fst).Nodup)
    (name : JsString) :
    JsFields.get (propertiesThroughJson fields) name = (JsFields.get fields name).reread := by
  induction fields with
  | nil =>
    rw [propertiesThroughJson]
    rfl
  | cons field fields ih =>
    obtain ⟨key, value⟩ := field
    obtain ⟨hnew, hnodup'⟩ := List.nodup_cons.mp hnodup
    rw [propertiesThroughJson, get_cons]
    by_cases homitted : value.isOmitted = true
    · rw [if_pos homitted, ih hnodup']
      split
      case isTrue hname =>
        rw [get_of_notMem (hname ▸ hnew), reread, reread, if_pos homitted]
        rfl
      case isFalse => rfl
    · rw [if_neg homitted, get_cons, ih hnodup']
      split
      case isTrue => rw [reread, if_neg homitted]
      case isFalse => rfl

/-- Fields whose values are kept read as before. -/
theorem get_of_kept {fields : JsFields} (hnodup : (fields.map Prod.fst).Nodup)
    (hkept : ∀ field ∈ fields, field.2.reread = field.2)
    (name : JsString) :
    JsFields.get (propertiesThroughJson fields) name = JsFields.get fields name := by
  rw [get_propertiesThroughJson hnodup, JsFields.get]
  cases hlookup : fields.lookup name with
  | none => rfl
  | some value =>
    obtain ⟨before, after, hfields, _⟩ := List.lookup_eq_some_iff.mp hlookup
    exact hkept (name, value) (by rw [hfields]; simp)

end JsTree
