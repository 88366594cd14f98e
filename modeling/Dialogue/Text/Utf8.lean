import Dialogue.Text.Hex

set_option autoImplicit false

namespace Dialogue.Text

/-- The code point that the payload bits of up to four bytes make up. -/
def payload? : List Nat → Option Nat
  | [a] => some a
  | [a, b] => some (a % 32 * 64 + b % 64)
  | [a, b, c] => some (a % 16 * 4096 + b % 64 * 64 + c % 64)
  | [a, b, c, d] => some (a % 8 * 262144 + b % 64 * 4096 + c % 64 * 64 + d % 64)
  | _ => none

/-- The character that bytes encode, if they encode exactly one: the one with their payload, if it
is encoded by these bytes. -/
def charOfBytes? (bytes : List Nat) : Option Char := do
  let n ← payload? bytes
  let c ← charOfCode? n
  if (String.utf8EncodeChar c).map UInt8.toNat = bytes then some c else none

/-- The number of bytes of a text. -/
def byteLength : List Char → Nat
  | [] => 0
  | c :: cs => c.utf8Size + byteLength cs

end Dialogue.Text
