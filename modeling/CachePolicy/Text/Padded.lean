/-!
# Numbers of a fixed width
-/

namespace CachePolicy.Text

/-- The digits of a number, with zeros in front of them up to a width. -/
def padded (width n : Nat) : String :=
  let digits := (toString n).toList
  String.ofList (List.replicate (width - digits.length) '0' ++ digits)

end CachePolicy.Text
