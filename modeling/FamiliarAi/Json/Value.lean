import Mathlib.Data.List.Basic

/-!
# JSON values that are looked into

The values that a parser of any JSON text gives and that requests to providers are made of. A number is
kept as its text, so a value with fractions is one as well. A value is looked into by the names of its
members; the order of the members does not matter here.
-/

inductive JsonValue
  | null
  | bool (b : Bool)
  | number (text : String)
  | string (s : String)
  | array (items : List JsonValue)
  | object (members : List (String × JsonValue))

namespace JsonValue

def get? : JsonValue → String → Option JsonValue
  | object members, key => (members.find? (·.1 = key)).map (·.2)
  | _, _ => none

def asStr? : JsonValue → Option String
  | string s => some s
  | _ => none

def asArray? : JsonValue → Option (List JsonValue)
  | array items => some items
  | _ => none

def keys? : JsonValue → Option (List String)
  | object members => some (members.map (·.1))
  | _ => none

def set (key : String) (v : JsonValue) : JsonValue → JsonValue
  | object members => object ((key, v) :: members.filter (·.1 ≠ key))
  | other => other

@[simp]
theorem get?_object_cons (key : String) (member : String × JsonValue)
    (members : List (String × JsonValue)) :
    (object (member :: members)).get? key =
      if member.1 = key then some member.2 else (object members).get? key := by
  simp only [get?, List.find?_cons]
  split_ifs with h <;> simp [h]

@[simp]
theorem get?_object_nil (key : String) : (object []).get? key = none :=
  rfl

@[simp]
theorem asStr?_string (s : String) : (string s).asStr? = some s :=
  rfl

@[simp]
theorem asArray?_array (items : List JsonValue) : (array items).asArray? = some items :=
  rfl

end JsonValue
