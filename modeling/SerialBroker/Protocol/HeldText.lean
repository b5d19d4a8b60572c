import Mathlib
import SerialBroker.Protocol.RoundTrip

/-!
# What a sender can make a receiver hold

The text an accepted message holds: its strings and its property names, with everything reachable in
its error or its report, in a map or a set as well. The walk counts the strings it meets. It does
not count the names of properties, nor what only a named property of an array leads to. What a
message holds is what is counted, which the limits bound, and what is not, which nothing bounds.
-/

namespace SerialBroker.Wire

noncomputable section

open scoped Classical

variable (h : JsHeap) {v : JsValue} {o : JsObject}

def stringLength : JsValue → Nat
  | .string s => s.length
  | _ => 0

def strings (values : List JsValue) : Nat := (values.map stringLength).sum

def JsObject.names (o : JsObject) : Nat := (o.properties.map fun property => property.1.length).sum

/-- The text of one object: its property names and its strings. -/
def JsObject.text (o : JsObject) : Nat :=
  JsObject.names o + (strings o.elements + (strings o.contents + strings o.values))

variable {h}

@[simp] theorem stringLength_object (r : JsRef) : stringLength (.object r) = 0 := rfl

end

end SerialBroker.Wire
