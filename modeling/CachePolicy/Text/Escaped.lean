import CachePolicy.Text.EscapedTable

/-!
# Texts inside messages

A message shows a text between quotation marks, with everything that would not
be visible written as an escape: `\0`, `\t`, `\n`, `\r`, the quotation mark and
the backslash in their short forms, and any other invisible character by its
number in braces.
-/

namespace CachePolicy.Text

/-- Whether a character from U+0080 on is shown by its number. -/
def isHidden (c : Char) : Bool :=
  let ranges :=
    if c.toNat < 0xE00 then escapedRangesLow
    else if c.toNat < 0x10000 then escapedRangesMiddle
    else escapedRangesHigh
  ranges.any fun range => range.1 ≤ c.toNat && c.toNat ≤ range.2

/-- A character by its number, in hexadecimal between braces. -/
def numbered (c : Char) : List Char :=
  ['\\', 'u', '\x7b'] ++ Nat.toDigits 16 c.toNat ++ ['\x7d']

/-- The characters that show one character in a message. -/
def showChar (c : Char) : List Char :=
  if c = '"' then ['\\', '"']
  else if c = '\\' then ['\\', '\\']
  else if c = '\n' then ['\\', 'n']
  else if c = '\r' then ['\\', 'r']
  else if c = '\t' then ['\\', 't']
  else if c.toNat = 0 then ['\\', '0']
  else if c.toNat < 32 ∨ c.toNat = 127 then numbered c
  else if c.toNat < 128 then [c]
  else if isHidden c then numbered c
  else [c]

/-- A text between quotation marks, as a message shows it. -/
def shown (text : String) : String :=
  String.ofList ('"' :: (text.toList.flatMap showChar ++ ['"']))

end CachePolicy.Text
