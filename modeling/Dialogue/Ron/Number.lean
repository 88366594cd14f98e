import Dialogue.Decimal.Read
import Dialogue.Ron.Basic
import Dialogue.Text.Hex

set_option autoImplicit false

namespace Dialogue.Ron

open Dialogue.Text

/-- A number as a literal gives it. -/
inductive Number where
  /-- A whole number with the mark of its width, which may be empty. -/
  | whole (value : Int) (width : List Char)
  | real (value : Float)

/-- Whether a literal has a minus sign, and the literal without its sign. -/
def splitSign : List Char → Bool × List Char
  | '-' :: cs => (true, cs)
  | '+' :: cs => (false, cs)
  | cs => (false, cs)

/-- The base of a whole number, and its digits. -/
def splitBase : List Char → Nat × List Char
  | '0' :: 'x' :: cs => (16, cs)
  | '0' :: 'o' :: cs => (8, cs)
  | '0' :: 'b' :: cs => (2, cs)
  | cs => (10, cs)

def isWholeChar (c : Char) : Bool :=
  (hexDigit? c).isSome || c = '_'

/-- Whether the mark of a width may stand behind digits of a base. -/
def takesWidth (base : Nat) : Bool :=
  base = 10 || base = 2

/-- The least and the greatest number of a width. -/
def bounds? (width : List Char) : Option (Int × Int) :=
  match String.ofList width with
  | "" => some (-(Nat.pow 2 63), Nat.pow 2 64 - 1)
  | "i8" => some (-(Nat.pow 2 7), Nat.pow 2 7 - 1)
  | "i16" => some (-(Nat.pow 2 15), Nat.pow 2 15 - 1)
  | "i32" => some (-(Nat.pow 2 31), Nat.pow 2 31 - 1)
  | "i64" => some (-(Nat.pow 2 63), Nat.pow 2 63 - 1)
  | "u8" => some (0, Nat.pow 2 8 - 1)
  | "u16" => some (0, Nat.pow 2 16 - 1)
  | "u32" => some (0, Nat.pow 2 32 - 1)
  | "u64" => some (0, Nat.pow 2 64 - 1)
  | _ => none

/-- The whole number that a literal spells. -/
def whole? (literal : List Char) : Option Number :=
  let (negative, unsigned) := splitSign literal
  let (base, rest) := splitBase unsigned
  let digits := rest.takeWhile isWholeChar
  let width := rest.dropWhile isWholeChar
  if digits.isEmpty || digits.head? = some '_' then none
  else if !width.isEmpty && !takesWidth base then none
  else do
    let n ← numeral? base (digits.filter (· ≠ '_'))
    let value : Int := if negative then -(n : Int) else n
    let (least, greatest) ← bounds? width
    if least ≤ value && value ≤ greatest then some (.whole value width) else none

/-- A literal without underscores. Each of them needs a digit or the mark of an exponent before it,
with no point between. -/
def dropUnderscores? (allowed : Bool) : List Char → Option (List Char)
  | [] => some []
  | '_' :: cs => if allowed then dropUnderscores? allowed cs else none
  | c :: cs =>
      let allowed := c.isDigit || c = 'e' || c = 'E' || (allowed && c ≠ '.')
      (dropUnderscores? allowed cs).map (c :: ·)

def isRealChar (c : Char) : Bool :=
  c.isDigit || c = 'e' || c = 'E' || c = '.' || c = '+' || c = '-' || c = '_'

/-- The number that a decimal fraction spells. -/
def decimal? (literal : List Char) : Option Number := do
  let spelled ← dropUnderscores? false (literal.takeWhile isRealChar)
  match String.ofList (literal.dropWhile isRealChar) with
  | "" | "f64" => (Decimal.read? spelled).map .real
  | "f32" => (Decimal.readSingle? spelled).map .real
  | _ => none

/-- The names of infinity and of no number, which may carry the mark of a precision. -/
def special? (name : List Char) : Option Float :=
  match String.ofList name with
  | "inf" | "inff32" | "inff64" => some (1.0 / 0.0)
  | "NaN" | "NaNf32" | "NaNf64" => some (0.0 / 0.0)
  | _ => none

/-- The number that a literal spells. -/
def number? (literal : List Char) : Option Number :=
  match whole? literal with
  | some n => some n
  | none =>
      let (negative, unsigned) := splitSign literal
      match special? unsigned with
      | some x => some (.real (if negative then -x else x))
      | none => decimal? literal

namespace Number

/-- The nearest number to a whole number; zero has no sign. -/
def toFloat : Number → Float
  | whole value _ =>
      let size := Decimal.scaled value.natAbs 0
      if value < 0 then -size else size
  | real value => value

/-- A whole number below `2 ^ 64`, if it is one and carries no mark of another width. -/
def toNat? : Number → Option Nat
  | whole value width =>
      if 0 ≤ value && (width.isEmpty || width = "u64".toList) then some value.toNat else none
  | real _ => none

end Number

end Dialogue.Ron
