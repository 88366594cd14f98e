import Dialogue.Decimal.Shortest

set_option autoImplicit false

namespace Dialogue.Number

def isNegative (x : Float) : Bool :=
  x.toBits.toNat / Nat.pow 2 63 = 1

/-- The whole part, toward zero. -/
def truncate (x : Float) : Float :=
  if isNegative x then x.ceil else x.floor

def fraction (x : Float) : Float :=
  x - truncate x

/-- Halves go up. -/
def roundHalfUp (x : Float) : Float :=
  (x + 0.5).floor

/-- The smaller of two numbers, or the one that is a number. -/
def smaller (x y : Float) : Float :=
  if x.isNaN || y < x then y else x

/-- The larger of two numbers, or the one that is a number. -/
def larger (x y : Float) : Float :=
  if x.isNaN || x < y then y else x

/-- The next whole number above. -/
def increment (x : Float) : Float :=
  if fraction x == 0.0 then x + 1.0 else x.ceil

/-- The next whole number below. -/
def decrement (x : Float) : Float :=
  if fraction x == 0.0 then x - 1.0 else x.floor

/-- What a whole number of `y` leaves of `x`, exactly and with the sign of `x`. -/
def remainder (x y : Float) : Float :=
  if x.isNaN || y.isNaN || x.isInf || y == 0.0 then 0.0 / 0.0
  else if y.isInf then x
  else
    let a := Decimal.Magnitude.ofBits (x.toBits.toNat % Nat.pow 2 63)
    let b := Decimal.Magnitude.ofBits (y.toBits.toNat % Nat.pow 2 63)
    let unit := min a.exponent b.exponent
    let rest := a.significand * Nat.pow 2 (a.exponent - unit).toNat %
      (b.significand * Nat.pow 2 (b.exponent - unit).toNat)
    let size := (Float.ofNat rest).scaleB unit
    if isNegative x then -size else size

/-- Rounds to a number of decimal places, halves up. -/
def roundPlaces (x places : Float) : Float :=
  let whole := places.floor
  let whole := if whole.isNaN then 0.0 else larger whole 0.0
  let factor := Float.pow 10.0 whole
  roundHalfUp (x * factor) / factor

end Dialogue.Number
