/-!
# Hexadecimal digits

Digits are read in either letter case.  Which case is written depends on the
format, so there is one function for each.
-/

namespace CachePolicy.Text

/-- The value of a hexadecimal digit. -/
def hexValue? (c : Char) : Option Nat :=
  if '0' ≤ c ∧ c ≤ '9' then some (c.toNat - '0'.toNat)
  else if 'a' ≤ c ∧ c ≤ 'f' then some (c.toNat - 'a'.toNat + 10)
  else if 'A' ≤ c ∧ c ≤ 'F' then some (c.toNat - 'A'.toNat + 10)
  else none

/-- The lower-case digit of a number modulo 16. -/
def lowerHex (n : Nat) : Char := Nat.digitChar (n % 16)

/-- The upper-case digit of a number modulo 16. -/
def upperHex (n : Nat) : Char := (Nat.digitChar (n % 16)).toUpper

/-- The value of digits in a base up to 16, unless one of them is no digit of
it. -/
def digitsValue? (base : Nat) (digits : List Char) : Option Nat :=
  digits.foldlM (fun value c => do
    let digit ← hexValue? c
    if digit < base then some (value * base + digit) else none) 0

@[simp] theorem digitsValue?_nil (base : Nat) : digitsValue? base [] = some 0 := rfl

theorem hexValue?_lowerHex (n : Nat) : hexValue? (lowerHex n) = some (n % 16) := by
  have : ∀ m : Fin 16, hexValue? (lowerHex m) = some m.val := by decide
  have h := this ⟨n % 16, Nat.mod_lt n (by decide)⟩
  simpa [lowerHex] using h

theorem hexValue?_upperHex (n : Nat) : hexValue? (upperHex n) = some (n % 16) := by
  have : ∀ m : Fin 16, hexValue? (upperHex m) = some m.val := by decide
  have h := this ⟨n % 16, Nat.mod_lt n (by decide)⟩
  simpa [upperHex] using h

end CachePolicy.Text
