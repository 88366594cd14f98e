import Dialogue.Text.Blank

set_option autoImplicit false

namespace Dialogue.Decimal

open Dialogue.Text

def digitValue (c : Char) : Nat :=
  c.toNat - '0'.toNat

def digitsValue (digits : List Char) : Nat :=
  digits.foldl (fun n c => n * 10 + digitValue c) 0

def allDigits (cs : List Char) : Bool :=
  !cs.isEmpty && cs.all Char.isDigit

/-- Beyond this power of ten in either direction there are only zero and infinity. -/
def powerLimit : Int :=
  400

/-- `significand * 10 ^ exponent`, rounded to the nearest number. Exponents beyond the range of the
numbers give zero or infinity. -/
def scaled (significand : Nat) (exponent : Int) : Float :=
  let size := (Nat.toDigits 10 significand).length + exponent
  if significand = 0 || size < -powerLimit then 0.0
  else if powerLimit < size then 1.0 / 0.0
  else Float.ofScientific significand (exponent < 0) exponent.natAbs

/-- Like `scaled`, with the nearest number of single precision. -/
def scaledSingle (significand : Nat) (exponent : Int) : Float :=
  let size := (Nat.toDigits 10 significand).length + exponent
  if significand = 0 || size < -powerLimit then 0.0
  else if powerLimit < size then 1.0 / 0.0
  else (Float32.ofScientific significand (exponent < 0) exponent.natAbs).toFloat

/-- The exponent part of a number, if the text is one. -/
def exponent? (cs : List Char) : Option Int :=
  match cs with
  | [] => some 0
  | mark :: rest =>
      if mark = 'e' || mark = 'E' then
        match rest with
        | '-' :: digits => if allDigits digits then some (-(digitsValue digits : Nat)) else none
        | '+' :: digits => if allDigits digits then some (digitsValue digits) else none
        | digits => if allDigits digits then some (digitsValue digits) else none
      else none

/-- The significand and the exponent of digits with an optional point and an optional exponent. -/
def parts? (cs : List Char) : Option (Nat × Int) :=
  let whole := cs.takeWhile Char.isDigit
  let rest := cs.dropWhile Char.isDigit
  let (fraction, rest) := match rest with
    | '.' :: rest => (rest.takeWhile Char.isDigit, rest.dropWhile Char.isDigit)
    | rest => ([], rest)
  if whole.isEmpty && fraction.isEmpty then none
  else (exponent? rest).map fun exponent =>
    (digitsValue (whole ++ fraction), exponent - fraction.length)

/-- A number without its sign. -/
def unsigned? (cs : List Char) : Option Float :=
  let word := String.ofList (cs.map Char.toLower)
  if word = "inf" || word = "infinity" then some (1.0 / 0.0)
  else if word = "nan" then some (0.0 / 0.0)
  else (parts? cs).map fun (significand, exponent) => scaled significand exponent

/-- The number that a text spells. -/
def read? (cs : List Char) : Option Float :=
  match cs with
  | '-' :: rest => (unsigned? rest).map fun x => -x
  | '+' :: rest => unsigned? rest
  | rest => unsigned? rest

/-- The number of single precision that digits with an optional sign spell. -/
def readSingle? (cs : List Char) : Option Float :=
  let single (cs : List Char) : Option Float :=
    (parts? cs).map fun (significand, exponent) => scaledSingle significand exponent
  match cs with
  | '-' :: rest => (single rest).map fun x => -x
  | '+' :: rest => single rest
  | rest => single rest

end Dialogue.Decimal
