import CachePolicy.Json.Basic

/-!
# Tables while they are written

A document adds to its tables from three places: a header opens a table, a
dotted key makes tables on its way, and an inline table is complete when it is
closed.  Each table therefore keeps how it came about, since that decides who
may still add to it.

`Fields.descend` walks a path and changes the table at its end; everything that
a document does is one change at the end of one path.
-/

namespace CachePolicy.Toml

/-- How a table came about. -/
inductive TableKind where
  /-- By a header of its own, or as the whole document. -/
  | explicit
  /-- On the way to the table of another header. -/
  | implicit
  /-- On the way of a dotted key. -/
  | dotted
  deriving DecidableEq, Repr, Inhabited

/-- What stands under a key. -/
inductive Item where
  | value (value : Json)
  | table (kind : TableKind) (fields : List (String × Item))
  /-- An array of tables, of which only the last is open. -/
  | tables (earlier : List (List (String × Item))) (last : List (String × Item))
  deriving Repr, Inhabited

/-- The members of a table, in the order in which they were first written. -/
abbrev Fields := List (String × Item)

mutual

/-- An item as a value. -/
def Item.toJson : Item → Json
  | .value value => value
  | .table _ fields => .obj (Fields.members fields)
  | .tables earlier last => .arr (Fields.objects earlier ++ [.obj (Fields.members last)])

/-- The members of a table as members of an object. -/
def Fields.members : Fields → List (String × Json)
  | [] => []
  | (key, item) :: rest => (key, item.toJson) :: Fields.members rest

/-- Tables as objects. -/
def Fields.objects : List Fields → List Json
  | [] => []
  | fields :: rest => .obj (Fields.members fields) :: Fields.objects rest

end

namespace Fields

/-- The members with another item under a key, at the same place. -/
def replace (key : String) (item : Item) (fields : Fields) : Fields :=
  fields.map fun field => if field.1 == key then (key, item) else field

/-- Change the table at the end of a path, and make the tables on the way that
are missing.  A dotted key does not enter the table of a header. -/
def descend (dotted : Bool) (change : TableKind → Fields → Option Fields) :
    (path : List String) → TableKind → Fields → Option Fields
  | [], kind, fields => change kind fields
  | key :: path, _, fields =>
    match fields.lookup key with
    | none => do
      let kind : TableKind := if dotted then .dotted else .implicit
      let inner ← descend dotted change path kind []
      some (fields ++ [(key, .table kind inner)])
    | some (.value _) => none
    | some (.table kind inner) =>
      if dotted && kind == .explicit then none
      else do
        let inner ← descend dotted change path kind inner
        some (fields.replace key (.table kind inner))
    | some (.tables earlier last) => do
      let last ← descend dotted change path .explicit last
      some (fields.replace key (.tables earlier last))

/-- Add a member that is not there yet.  Members of tables that dotted keys made
are added by dotted keys alone. -/
def add (nested : Bool) (key : String) (value : Json) (kind : TableKind) (fields : Fields) :
    Option Fields :=
  if (kind == .dotted) != nested then none
  else if (fields.lookup key).isSome then none
  else some (fields ++ [(key, .value value)])

/-- Give the end of a dotted key a value. -/
def assign (path : List String) (key : String) (value : Json) :
    TableKind → Fields → Option Fields :=
  descend true (add (!path.isEmpty) key value) path

/-- Open the table of a header.  A table that was only on the way to others may
still get a header, and then takes its place among the members anew. -/
def openTable (key : String) (_ : TableKind) (fields : Fields) : Option Fields :=
  match fields.lookup key with
  | none => some (fields ++ [(key, .table .explicit [])])
  | some (.table .implicit inner) =>
    some (fields.filter (·.1 != key) ++ [(key, .table .explicit inner)])
  | some _ => none

/-- Open one more table of an array of tables. -/
def openElement (key : String) (_ : TableKind) (fields : Fields) : Option Fields :=
  match fields.lookup key with
  | none => some (fields ++ [(key, .tables [] [])])
  | some (.tables earlier last) => some (fields.replace key (.tables (earlier ++ [last]) []))
  | some _ => none

@[simp] theorem members_nil : members [] = [] := by simp [members]

@[simp] theorem members_cons (key : String) (item : Item) (rest : Fields) :
    members ((key, item) :: rest) = (key, item.toJson) :: members rest := by
  simp [members]

end Fields

end CachePolicy.Toml
