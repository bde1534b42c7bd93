import CachePolicy.Text.Utf8

/-!
# Names of files

A name is a row of bytes.  Most names are the bytes of a text, but a disk takes others too.
Where a name is shown, or compared with a text, every fault in it is replaced by U+FFFD, so
two names may look alike.
-/

namespace CachePolicy

/-- What stands between two slashes of a path. -/
structure FileName where
  bytes : List UInt8
  deriving DecidableEq, Repr

namespace FileName

/-- The name that a text spells. -/
def ofText (text : String) : FileName := ⟨Utf8.encode text.toList⟩

instance : Coe String FileName := ⟨ofText⟩

/-- A name as it is shown. -/
def text (name : FileName) : String :=
  String.ofList (Utf8.lossyChars (name.bytes.length + 1) name.bytes)

/-- Names as they are shown. -/
def shown (names : List FileName) : List String := names.map text

/-! ## Order -/

/-- Names are in the order of their bytes. -/
instance : LT FileName := ⟨fun first second => first.bytes < second.bytes⟩

instance (first second : FileName) : Decidable (first < second) :=
  inferInstanceAs (Decidable (first.bytes < second.bytes))

instance irreflLt : Std.Irrefl (fun a b : FileName => a < b) :=
  ⟨fun name => List.lt_irrefl name.bytes⟩

instance transLt : Trans (fun a b : FileName => a < b) (fun a b : FileName => a < b)
    (fun a b : FileName => a < b) := ⟨List.lt_trans⟩

instance trichotomousLt : Std.Trichotomous (fun a b : FileName => a < b) where
  trichotomous first second notBelow notAbove := by
    have same : first.bytes = second.bytes :=
      List.le_antisymm (List.not_lt.mp notAbove) (List.not_lt.mp notBelow)
    cases first
    cases second
    exact congrArg mk same

instance transLtNames : Trans (fun a b : List FileName => a < b)
    (fun a b : List FileName => a < b) (fun a b : List FileName => a < b) := ⟨List.lt_trans⟩

instance trichotomousLtNames : Std.Trichotomous (fun a b : List FileName => a < b) :=
  ⟨fun _ _ notBelow notAbove =>
    List.le_antisymm (List.not_lt.mp notAbove) (List.not_lt.mp notBelow)⟩

end FileName

end CachePolicy
