import CachePolicy.Json.Printer
import CachePolicy.Text.Escaped

/-!
# Reading typed data out of JSON

A decoder takes a value to typed data or says what is wrong with the value.
Records are read by `Shape.read`.  The members of an object are checked in the
order in which they are written, so the first faulty one is reported; only then
is a missing field noticed, in the order of the fields.

A record may also be written as a list of its fields in order.  Fields at the
end may be left out when they have a default.
-/

namespace CachePolicy

/-- What is wrong with a value. -/
inductive DecodeError where
  /-- The value is of another kind than the one wanted. -/
  | wrongType (found : Json) (wanted : String)
  /-- The value is of the right kind, but not one that is allowed. -/
  | wrongValue (found : Json) (wanted : String)
  | missingField (key : String)
  | duplicateField (key : String)
  | unknownField (key : String) (known : List String)
  | unknownVariant (name : String) (known : List String)
  /-- A list that stands for a record has the wrong number of items. -/
  | wrongLength (length : Nat) (wanted : String)
  /-- No form of a value that has several fits. -/
  | noForm (name : String)
  deriving Repr

namespace DecodeError

/-- How a message names a value. -/
def describe : Json → String
  | .null => "null"
  | .bool b => s!"boolean `{b}`"
  | .num (.int n) => s!"integer `{String.ofList (Json.intChars n)}`"
  | .num (.float x) => s!"floating point `{String.ofList (Decimal.write Json.doubles x)}`"
  | .str s => "string " ++ Text.shown s
  | .arr _ => "sequence"
  | .obj _ => "map"

/-- A name between grave accents. -/
def marked (name : String) : String := s!"`{name}`"

/-- How a message lists the names that would be allowed. -/
def choices : List String → String
  | [one] => marked one
  | [one, other] => marked one ++ " or " ++ marked other
  | names => "one of " ++ ", ".intercalate (names.map marked)

/-- The wording of an error. -/
def message : DecodeError → String
  | .wrongType found wanted => s!"invalid type: {describe found}, expected {wanted}"
  | .wrongValue found wanted => s!"invalid value: {describe found}, expected {wanted}"
  | .missingField key => "missing field " ++ marked key
  | .duplicateField key => "duplicate field " ++ marked key
  | .unknownField key known => s!"unknown field {marked key}, expected {choices known}"
  | .unknownVariant name known => s!"unknown variant {marked name}, expected {choices known}"
  | .wrongLength length wanted => s!"invalid length {length}, expected {wanted}"
  | .noForm name => s!"data did not match any variant of untagged enum {name}"

end DecodeError

/-- A decoder of typed data. -/
abbrev Decoder (α : Type) := Json → Except DecodeError α

namespace Decode

/-- A text. -/
def string : Decoder String
  | .str s => .ok s
  | value => .error (.wrongType value "a string")

/-- A text that names a file. -/
def path : Decoder String
  | .str s => .ok s
  | value => .error (.wrongType value "path string")

/-- A truth value. -/
def bool : Decoder Bool
  | .bool b => .ok b
  | value => .error (.wrongType value "a boolean")

/-- An integer from 0 up to, but not including, `bound`. -/
def natBelow (bound : Nat) (wanted : String) : Decoder Nat
  | .num (.int n) =>
    if 0 ≤ n ∧ n < bound then .ok n.toNat
    else .error (.wrongValue (.num (.int n)) wanted)
  | value => .error (.wrongType value wanted)

/-- A count of 32 bits. -/
def uint32 : Decoder UInt32 := fun value => do
  let n ← natBelow UInt32.size "u32" value
  .ok (UInt32.ofNat n)

/-- A count of 64 bits. -/
def uint64 : Decoder UInt64 := fun value => do
  let n ← natBelow UInt64.size "u64" value
  .ok (UInt64.ofNat n)

/-- Data that may be absent, written as null. -/
def optional (decode : Decoder α) : Decoder (Option α)
  | .null => .ok none
  | value => do
    let a ← decode value
    .ok (some a)

/-- Every item of a list. -/
def listItems (decode : Decoder α) : List Json → Except DecodeError (List α)
  | [] => .ok []
  | item :: rest => do
    let a ← decode item
    let more ← listItems decode rest
    .ok (a :: more)

/-- A list. -/
def list (decode : Decoder α) : Decoder (List α)
  | .arr items => listItems decode items
  | value => .error (.wrongType value "a sequence")

/-- Every member of an object. -/
def mapFields (decode : Decoder α) : List (String × Json) → Except DecodeError (List (String × α))
  | [] => .ok []
  | (key, value) :: rest => do
    let a ← decode value
    let more ← mapFields decode rest
    .ok ((key, a) :: more)

/-- An object with free keys. -/
def map (decode : Decoder α) : Decoder (List (String × α))
  | .obj fields => mapFields decode fields
  | value => .error (.wrongType value "a map")

/-- The meaning of a name. -/
def named (names : List (String × α)) (name : String) : Except DecodeError α :=
  match names.lookup name with
  | some a => .ok a
  | none => .error (.unknownVariant name (names.map (·.1)))

/-- One of several names, as a text or as the only key of an object whose value
says nothing. -/
def choiceWhere (saysNothing : Json → Bool) (names : List (String × α)) : Decoder α
  | .str name => named names name
  | .obj [(name, payload)] => do
    let a ← named names name
    if saysNothing payload then .ok a else .error (.wrongType payload "unit")
  | .obj fields => .error (.wrongValue (.obj fields) "map with a single key")
  | value => .error (.wrongType value "string or map")

/-- One of several names, as a text or as the only key of an object that holds
null. -/
def choice (names : List (String × α)) : Decoder α := choiceWhere Json.isNull names

/-- Inside a tagged value an empty object says nothing as well. -/
def taggedChoice (names : List (String × α)) : Decoder α :=
  choiceWhere (fun payload => payload.isNull || payload.isEmptyObject) names

/-- Use the value of a decoder for its faults only. -/
def check (decode : Decoder α) : Decoder Unit := fun value => do
  let _ ← decode value
  .ok ()

@[simp] theorem string_str (s : String) : string (.str s) = .ok s := rfl

@[simp] theorem path_str (s : String) : path (.str s) = .ok s := rfl

@[simp] theorem bool_bool (b : Bool) : bool (.bool b) = .ok b := rfl

@[simp] theorem choice_str (names : List (String × α)) (name : String) :
    choice names (.str name) = named names name := rfl

@[simp] theorem optional_null (decode : Decoder α) : optional decode .null = .ok none := rfl

end Decode

/-- The fields of a record in the form in which it was written. -/
structure Row where
  /-- The value of a field, if it is written. -/
  find : String → Option Json
  /-- What to report when a field without a default is not written. -/
  missing : String → DecodeError
  /-- Whether the fields are told apart by their place. -/
  positional : Bool

namespace Row

/-- The members of an object. -/
def ofFields (fields : List (String × Json)) : Row where
  find key := fields.lookup key
  missing := .missingField
  positional := false

/-- The items of a list, for the record that `wanted` describes. -/
def ofItems (keys : List String) (wanted : String) (items : List Json) : Row where
  find key := items[keys.idxOf key]?
  missing key := .wrongLength (keys.idxOf key) wanted
  positional := true

/-- A field that has to be written. -/
def required (row : Row) (key : String) (decode : Decoder α) : Except DecodeError α :=
  match row.find key with
  | some value => decode value
  | none => .error (row.missing key)

/-- A field with a default. -/
def withDefault (row : Row) (key : String) (decode : Decoder α) (default : α) :
    Except DecodeError α :=
  match row.find key with
  | some value => decode value
  | none => .ok default

/-- A field that may be null, and that may be left out where fields have names. -/
def nullable (row : Row) (key : String) (decode : Decoder α) : Except DecodeError (Option α) :=
  match row.find key with
  | some value => Decode.optional decode value
  | none => if row.positional then .error (row.missing key) else .ok none

end Row

/-- A field of a record and the check of its value. -/
structure Field where
  key : String
  check : Decoder Unit

/-- How a record is written. -/
structure Shape where
  /-- How messages name the record. -/
  name : String
  fields : List Field
  /-- Whether other keys are refused. -/
  closed : Bool

namespace Shape

/-- The keys in the order of the fields. -/
def keys (shape : Shape) : List String := shape.fields.map (·.key)

/-- Check the members of an object in the order in which they are written;
`seen` holds the keys before them. -/
def scan (shape : Shape) (seen : List String) : List (String × Json) → Except DecodeError Unit
  | [] => .ok ()
  | (key, value) :: rest =>
    match shape.fields.find? (·.key == key) with
    | some field =>
      if seen.contains key then .error (.duplicateField key)
      else do
        field.check value
        scan shape (key :: seen) rest
    | none =>
      if shape.closed then .error (.unknownField key shape.keys) else scan shape seen rest

/-- How many items a list needs, in words. -/
def wantedItems (shape : Shape) : String :=
  let n := shape.fields.length
  s!"{shape.name} with {n} " ++ if n = 1 then "element" else "elements"

/-- Read a record from an object. -/
def readFields (shape : Shape) (build : Row → Except DecodeError α)
    (fields : List (String × Json)) : Except DecodeError α := do
  shape.scan [] fields
  build (.ofFields fields)

/-- Read a record from a list; `excess` reports items beyond the fields. -/
def readItems (shape : Shape) (excess : Nat → DecodeError) (build : Row → Except DecodeError α)
    (items : List Json) : Except DecodeError α := do
  let a ← build (.ofItems shape.keys shape.wantedItems items)
  if shape.fields.length < items.length then .error (excess items.length) else .ok a

/-- Read a record. -/
def read (shape : Shape) (build : Row → Except DecodeError α) : Decoder α
  | .obj fields => shape.readFields build fields
  | .arr items =>
    shape.readItems (.wrongLength · "fewer elements in array") build items
  | value => .error (.wrongType value shape.name)

end Shape

end CachePolicy
