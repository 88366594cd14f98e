set_option autoImplicit false

namespace Dialogue.Text

def hexDigit? (c : Char) : Option Nat :=
  if c.isDigit then some (c.toNat - '0'.toNat)
  else if 'a' ≤ c && c ≤ 'f' then some (c.toNat - 'a'.toNat + 10)
  else if 'A' ≤ c && c ≤ 'F' then some (c.toNat - 'A'.toNat + 10)
  else none

/-- The number that digits of a base up to sixteen spell; without digits, zero. -/
def numeral? (base : Nat) (digits : List Char) : Option Nat :=
  digits.foldl (fun n c => n.bind fun n => (hexDigit? c).bind fun d =>
    if d < base then some (base * n + d) else none) (some 0)

/-- The character with a code point, if there is one. -/
def charOfCode? (n : Nat) : Option Char :=
  if n.isValidChar then some (Char.ofNat n) else none

end Dialogue.Text
