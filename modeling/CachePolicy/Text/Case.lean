import CachePolicy.Text.UpperTable

/-!
# Letter case

`Text.upper` maps every character to its full upper-case form, which may be
longer than the character itself.  `Text.lower` is needed only to recognise
ASCII names: beyond ASCII it maps the one character that has an ASCII letter as
its lower-case form, the Kelvin sign.
-/

namespace CachePolicy.Text

/-- The upper-case form of one character. -/
def upperChar (c : Char) : List Char :=
  if c.toNat < 128 then [c.toUpper]
  else
    match upperExpansions.lookup c.toNat with
    | some forms => forms.map Char.ofNat
    | none =>
      let runs := if c.toNat < 0x2000 then upperRunsLow else upperRunsHigh
      match runs.find? fun run =>
        run.first ≤ c.toNat && c.toNat ≤ run.last && (c.toNat - run.first) % run.step == 0 with
      | some run => [Char.ofNat ((c.toNat : Int) + run.shift).toNat]
      | none => [c]

/-- The upper-case form of a text. -/
def upper (text : String) : String := String.ofList (text.toList.flatMap upperChar)

/-- The lower-case form of a character whose lower-case form is an ASCII letter;
any other character stays as it is. -/
def lowerChar (c : Char) : Char := if c.toNat = 0x212A then 'k' else c.toLower

/-- The lower-case form of a text, for comparison with ASCII names. -/
def lower (text : String) : String := text.map lowerChar

@[simp] theorem upperChar_of_ascii {c : Char} (h : c.toNat < 128) :
    upperChar c = [c.toUpper] := by
  simp [upperChar, h]

end CachePolicy.Text
