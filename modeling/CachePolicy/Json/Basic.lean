import CachePolicy.Decimal.Binary64

/-!
# JSON values with ordered objects

An object is the list of its members in the order in which they were written.
The order is part of the value: a policy's caching strategies are tried in the
order of their keys.

Integers and numbers with a fraction are told apart, since a count may be given
as `60` and not as `60.0`.
-/

namespace CachePolicy

/-- A JSON number: an integer within 64 bits, or a double. -/
inductive Number where
  | int (value : Int)
  | float (value : Binary64)
  deriving DecidableEq, Repr, Inhabited

/-- A JSON value. -/
inductive Json where
  | null
  | bool (value : Bool)
  | num (value : Number)
  | str (text : String)
  | arr (items : List Json)
  | obj (fields : List (String × Json))
  deriving Repr, Inhabited

namespace Json

/-- An integer as a value. -/
def int (n : Int) : Json := .num (.int n)

/-- A natural number as a value. -/
def nat (n : Nat) : Json := .num (.int n)

/-- A list of texts as a value. -/
def strs (texts : List String) : Json := .arr (texts.map .str)

/-- The member of an object under a key; nothing for any other value. -/
def get? (key : String) : Json → Option Json
  | .obj fields => fields.lookup key
  | _ => none

/-- The value at the end of a way through objects. -/
def at? : List String → Json → Option Json
  | [], value => some value
  | key :: way, value => (value.get? key).bind (at? way)

/-- The text, when the value is one. -/
def text? : Json → Option String
  | .str text => some text
  | _ => none

/-- The integer, when the value is one. -/
def int? : Json → Option Int
  | .num (.int n) => some n
  | _ => none

/-- The truth value, when the value is one. -/
def bool? : Json → Option Bool
  | .bool b => some b
  | _ => none

/-- Whether a value is null. -/
def isNull : Json → Bool
  | .null => true
  | _ => false

/-- Whether a value is an object without members. -/
def isEmptyObject : Json → Bool
  | .obj [] => true
  | _ => false

/-- The members that are present, in order. -/
def present (fields : List (String × Option Json)) : List (String × Json) :=
  fields.filterMap fun field => field.2.map fun value => (field.1, value)

@[simp] theorem at?_nil (value : Json) : value.at? [] = some value := rfl

@[simp] theorem at?_cons (key : String) (way : List String) (value : Json) :
    value.at? (key :: way) = (value.get? key).bind (at? way) := rfl

@[simp] theorem present_nil : present [] = [] := rfl

@[simp] theorem present_some (key : String) (value : Json)
    (rest : List (String × Option Json)) :
    present ((key, some value) :: rest) = (key, value) :: present rest := rfl

@[simp] theorem present_none (key : String) (rest : List (String × Option Json)) :
    present ((key, none) :: rest) = present rest := rfl

end Json

end CachePolicy
