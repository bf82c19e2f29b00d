-- SUMMARY: Python values as JSON decodes them, and the operations that raise on a value of the wrong type.
import Stylme.Backend.Store

/-!
# Python values

What a provider answers is decoded into values whose shape nothing guarantees.
Methods, subscripts and iteration raise on a value of the wrong type, and the
services rely on `or` to replace what is absent or empty.
-/

namespace Stylme

namespace Backend

inductive Value where
  | none
  | bool (b : Bool)
  | int (i : ℤ)
  | float (x : ℚ)
  | str (s : String)
  | list (items : List Value)
  | dict (fields : List (String × Value))

namespace Value

/-- `type(v).__name__` -/
def typeName : Value → String
  | none => "NoneType"
  | bool _ => "bool"
  | int _ => "int"
  | float _ => "float"
  | str _ => "str"
  | list _ => "list"
  | dict _ => "dict"

/-- `bool(v)` -/
def truthy : Value → Bool
  | none => false
  | bool b => b
  | int i => i ≠ 0
  | float x => x ≠ 0
  | str s => s ≠ ""
  | list items => !items.isEmpty
  | dict fields => !fields.isEmpty

/-- `v or d` -/
def orElse (v d : Value) : Value := if v.truthy then v else d

/-- `v is True` -/
def isTrue : Value → Bool
  | bool b => b
  | _ => false

/-- `isinstance(v, int)`, of which `bool` is a subclass. -/
def toInt? : Value → Option ℤ
  | int i => some i
  | bool b => some (if b then 1 else 0)
  | _ => Option.none

/-- `str(v)`, the texts of floats and containers given by `repr`. -/
def toStr (repr : Value → String) : Value → String
  | str s => s
  | int i => toString i
  | bool true => "True"
  | bool false => "False"
  | none => "None"
  | v => repr v

def ofOption : Option String → Value
  | some s => str s
  | Option.none => none

def ofStrings (l : List String) : Value := list (l.map str)

/-- `v.get(key)` -/
def get (v : Value) (key : String) : Except Raised Value :=
  match v with
  | dict fields => .ok ((fields.lookup key).getD none)
  | v => .error ⟨"AttributeError", "'" ++ v.typeName ++ "' object has no attribute 'get'"⟩

/-- `len(v)` -/
def len : Value → Except Raised ℕ
  | str s => .ok s.length
  | list items => .ok items.length
  | dict fields => .ok fields.length
  | v => .error ⟨"TypeError", "object of type '" ++ v.typeName ++ "' has no len()"⟩

/-- `v[i]` for a position `i`; the keys of a decoded object are strings. -/
def item (v : Value) (i : ℕ) : Except Raised Value :=
  match v with
  | str s =>
    match s.toList[i]? with
    | some c => .ok (str (String.ofList [c]))
    | Option.none => .error ⟨"IndexError", "string index out of range"⟩
  | list items =>
    match items[i]? with
    | some v => .ok v
    | Option.none => .error ⟨"IndexError", "list index out of range"⟩
  | dict _ => .error ⟨"KeyError", toString i⟩
  | v => .error ⟨"TypeError", "'" ++ v.typeName ++ "' object is not subscriptable"⟩

/-- `for x in v` -/
def iter : Value → Except Raised (List Value)
  | str s => .ok (s.toList.map fun c => str (String.ofList [c]))
  | list items => .ok items
  | dict fields => .ok (fields.map fun field => str field.1)
  | v => .error ⟨"TypeError", "'" ++ v.typeName ++ "' object is not iterable"⟩

/-- `key in v`, for a list only by the strings it holds. -/
def contains (v : Value) (key : String) : Except Raised Bool :=
  match v with
  | dict fields => .ok (fields.any (·.1 = key))
  | list items => .ok (items.any fun
    | str s => s = key
    | _ => false)
  | str s => .ok ((s.splitOn key).length ≠ 1)
  | v => .error ⟨"TypeError", "argument of type '" ++ v.typeName ++ "' is not iterable"⟩

end Value

end Backend

end Stylme
