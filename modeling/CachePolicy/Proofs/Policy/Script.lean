import CachePolicy.Policy.Program
import CachePolicy.Proofs.Json.CodeUnits

/-!
# The script that evaluates matchers

The function `matchRequest` of a worker's program takes the JSON of a matcher and gives a
condition on requests.  Here it is a term of a small script language, which has a text, the
one that stands in the program, and a meaning.

A term means nothing where a script would throw.  Texts are compared by their code units.
Regular expressions are left to the engine that runs the script.
-/

namespace CachePolicy

/-! ## The language -/

namespace Script

/-- The regular expressions of an engine: what it makes of a source, unless it refuses it,
and whether that has a match in a text. -/
structure RegExps (ρ : Type) where
  make : String → Option ρ
  test : ρ → String → Bool

/-- A value of a script. -/
inductive Value (ρ : Type) where
  | data (value : Json)
  | regExp (made : ρ)

/-- An expression. -/
inductive Term where
  | var (name : String)
  | member (object : Term) (key : String)
  | literal (text : String)
  | never
  | same (left right : Term)
  | includes (list item : Term)
  | startsWith (text start : Term)
  | endsWith (text ending : Term)
  /-- Whether an item of a list, under a name, meets a condition. -/
  | anyOf (list : Term) (item : String) (condition : Term)
  | test (pattern text : Term)

/-- A function of a request that is given apart, of which it takes the parts that it names. -/
structure Handler where
  parts : List String
  body : Term

/-- The function that an arm gives. -/
inductive Branch where
  | give (handler : Handler)
  | choose (condition : Term) (whenSo otherwise : Handler)

/-- An arm of a switch, which may make a regular expression first. -/
structure Arm where
  label : String
  made : Option (String × Term)
  branch : Branch

/-- A function that only switches. -/
structure Switch where
  name : String
  parameter : String
  subject : Term
  arms : List Arm
  otherwise : Handler

/-! ## Texts -/

/-- The text of a term. -/
def Term.text : Term → String
  | var name => name
  | member object key => object.text ++ "." ++ key
  | literal text => "'" ++ text ++ "'"
  | never => "false"
  | same left right => left.text ++ " === " ++ right.text
  | includes list item => list.text ++ ".includes(" ++ item.text ++ ")"
  | startsWith text start => text.text ++ ".startsWith(" ++ start.text ++ ")"
  | endsWith text ending => text.text ++ ".endsWith(" ++ ending.text ++ ")"
  | anyOf list item condition =>
    list.text ++ ".some((" ++ item ++ ") => " ++ condition.text ++ ")"
  | test pattern text => pattern.text ++ ".test(" ++ text.text ++ ")"

/-- The text of a handler. -/
def Handler.text (handler : Handler) : String :=
  (if handler.parts.isEmpty then "()"
    else "(\x7b " ++ ", ".intercalate handler.parts ++ " \x7d)") ++ " => " ++ handler.body.text

/-- The lines of a branch. -/
def Branch.lines : Branch → List String
  | give handler => ["      return " ++ handler.text ++ ";"]
  | choose condition whenSo otherwise =>
    ["      return " ++ condition.text, "        ? " ++ whenSo.text,
      "        : " ++ otherwise.text ++ ";"]

/-- The lines of an arm. -/
def Arm.lines (arm : Arm) : List String :=
  match arm.made with
  | none => ("    case '" ++ arm.label ++ "':") :: arm.branch.lines
  | some (name, source) =>
    ("    case '" ++ arm.label ++ "': \x7b") ::
      ("      const " ++ name ++ " = new RegExp(" ++ source.text ++ ");") ::
      (arm.branch.lines ++ ["    \x7d"])

/-- The lines of a switch. -/
def Switch.lines (switch : Switch) : List String :=
  ["function " ++ switch.name ++ "(" ++ switch.parameter ++ ") \x7b",
      "  switch (" ++ switch.subject.text ++ ") \x7b"] ++
    switch.arms.flatMap Arm.lines ++
    ["    default:", "      return " ++ switch.otherwise.text ++ ";", "  \x7d", "\x7d"]

/-! ## Meaning -/

namespace Value

variable {ρ : Type}

/-- The text, when the value is one. -/
def text? : Value ρ → Option String
  | data value => value.text?
  | regExp _ => none

/-- The items, when the value is a list. -/
def items? : Value ρ → Option (List Json)
  | data (.arr items) => some items
  | _ => none

/-- The truth value, when the value is one. -/
def truth? : Value ρ → Option Bool
  | data value => value.bool?
  | regExp _ => none

/-- The member of an object. -/
def get? (key : String) : Value ρ → Option (Value ρ)
  | data value => (value.get? key).map data
  | regExp _ => none

@[simp] theorem text?_str (text : String) : (data (.str text) : Value ρ).text? = some text := rfl

@[simp] theorem items?_arr (items : List Json) :
    (data (.arr items) : Value ρ).items? = some items := rfl

@[simp] theorem truth?_bool (b : Bool) : (data (.bool b) : Value ρ).truth? = some b := rfl

@[simp] theorem bind_truth? (found : Option Bool) :
    ((found.bind fun b => some (.data (.bool b) : Value ρ)).bind fun value => value.truth?) =
      found := by
  cases found <;> rfl

@[simp] theorem get?_obj (key : String) (fields : List (String × Json)) :
    (data (.obj fields) : Value ρ).get? key = (fields.lookup key).map data := rfl

end Value

/-- What the names of a script stand for. -/
abbrev Scope (ρ : Type) := List (String × Value ρ)

variable {ρ : Type} (engine : RegExps ρ)

/-- Two texts are the same for a script. -/
def sameText (first second : String) : Bool := Json.units first == Json.units second

/-- Whether a value is a text that is the same as another one. -/
def isText (text : String) (value : Json) : Bool :=
  match value.text? with
  | some other => sameText other text
  | none => false

@[simp] theorem sameText_eq (first second : String) :
    sameText first second = (first == second) := by
  rw [Bool.eq_iff_iff, sameText, beq_iff_eq, beq_iff_eq, Json.units_inj]

@[simp] theorem isText_str (text other : String) : isText text (.str other) = (other == text) :=
  sameText_eq other text

/-- The value of a term. -/
@[simp] def Term.eval : Term → Scope ρ → Option (Value ρ)
  | var name, scope => scope.lookup name
  | member object key, scope => do (← object.eval scope).get? key
  | literal text, _ => some (.data (.str text))
  | never, _ => some (.data (.bool false))
  | same left right, scope => do
    let left ← (← left.eval scope).text?
    let right ← (← right.eval scope).text?
    return .data (.bool (sameText left right))
  | includes list item, scope => do
    let items ← (← list.eval scope).items?
    let text ← (← item.eval scope).text?
    return .data (.bool (items.any (isText text)))
  | startsWith text start, scope => do
    let text ← (← text.eval scope).text?
    let start ← (← start.eval scope).text?
    return .data (.bool ((Json.units start).isPrefixOf (Json.units text)))
  | endsWith text ending, scope => do
    let text ← (← text.eval scope).text?
    let ending ← (← ending.eval scope).text?
    return .data (.bool ((Json.units ending).isSuffixOf (Json.units text)))
  | anyOf list item condition, scope => do
    let items ← (← list.eval scope).items?
    let found ← items.anyM fun value => do
      (← condition.eval ((item, .data value) :: scope)).truth?
    return .data (.bool found)
  | test pattern text, scope => do
    let .regExp made ← pattern.eval scope | none
    let text ← (← text.eval scope).text?
    return .data (.bool (engine.test made text))

/-- The parts of a request that a handler names. -/
@[simp] def Handler.bind (handler : Handler) (parts : Scope ρ) : Option (Scope ρ) :=
  handler.parts.mapM fun part => (parts.lookup part).map (part, ·)

/-- What a handler says of a request. -/
@[simp] def Handler.call (handler : Handler) (scope parts : Scope ρ) : Option Bool := do
  (← handler.body.eval engine ((← handler.bind parts) ++ scope)).truth?

/-- The handler of a branch. -/
@[simp] def Branch.eval (scope : Scope ρ) : Branch → Option Handler
  | give handler => some handler
  | choose condition whenSo otherwise => do
    let so ← (← condition.eval engine scope).truth?
    return if so then whenSo else otherwise

/-- The names that an arm adds. -/
@[simp] def Arm.bind (arm : Arm) (scope : Scope ρ) : Option (Scope ρ) :=
  match arm.made with
  | none => some scope
  | some (name, source) => do
    let made ← engine.make (← (← source.eval engine scope).text?)
    return (name, .regExp made) :: scope

/-- What a switch, applied to a value, says of a request. -/
@[simp] def Switch.call (switch : Switch) (argument : Json) (parts : Scope ρ) : Option Bool := do
  let scope : Scope ρ := [(switch.parameter, .data argument)]
  let subject ← (← switch.subject.eval engine scope).text?
  match switch.arms.find? (sameText subject ·.label) with
  | none => switch.otherwise.call engine scope parts
  | some arm => do
    let scope ← arm.bind engine scope
    (← arm.branch.eval engine scope).call engine scope parts

/-! ## The function of a program -/

/-- The function that evaluates a matcher. -/
def matchRequest : Switch where
  name := "matchRequest"
  parameter := "matcher"
  subject := .member (.var "matcher") "type"
  arms :=
    [⟨"destination", none, .give ⟨["request"],
        .includes (.member (.var "matcher") "destinations")
          (.member (.var "request") "destination")⟩⟩,
      ⟨"path_prefix", none, .give ⟨["url"],
        .startsWith (.member (.var "url") "pathname") (.member (.var "matcher") "prefix")⟩⟩,
      ⟨"method", none, .give ⟨["request"],
        .same (.member (.var "request") "method") (.member (.var "matcher") "method")⟩⟩,
      ⟨"extensions", none, .give ⟨["request"],
        .anyOf (.member (.var "matcher") "extensions") "ext"
          (.endsWith (.member (.var "request") "url") (.var "ext"))⟩⟩,
      ⟨"pattern", some ("re", .member (.var "matcher") "pattern"),
        .choose (.same (.member (.var "matcher") "target") (.literal "path"))
          ⟨["url"], .test (.var "re") (.member (.var "url") "pathname")⟩
          ⟨["url"], .test (.var "re") (.member (.var "url") "href")⟩⟩]
  otherwise := ⟨[], .never⟩

/-- It stands in the program. -/
theorem lines_matchRequest :
    Statement.lines matchRequest.lines = Statement.text .matchFunction := by
  decide +kernel

end Script

end CachePolicy
