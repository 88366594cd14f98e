set_option autoImplicit false

namespace Dialogue.Decimal

/-- The magnitude of a finite number, `significand * 2 ^ exponent`. -/
structure Magnitude where
  significand : Nat
  exponent : Int
  /-- The neighbour below is half as far away as the one above. -/
  closeBelow : Bool

namespace Magnitude

/-- The magnitude that the bits of a finite number spell. -/
def ofBits (bits : Nat) : Magnitude :=
  let field : Nat := bits / Nat.pow 2 52 % Nat.pow 2 11
  let fraction : Nat := bits % Nat.pow 2 52
  if field = 0 then ⟨fraction, -1074, false⟩
  else ⟨Nat.pow 2 52 + fraction, (field : Int) - 1075, fraction == 0 && field > 1⟩

/-- The magnitude as a quotient of naturals, in quarters of its last binary place. -/
def quarter (x : Magnitude) (grid : Int) : Nat × Nat :=
  (Nat.pow 2 (x.exponent - 2).toNat * Nat.pow 10 (-grid).toNat,
    Nat.pow 2 (2 - x.exponent).toNat * Nat.pow 10 grid.toNat)

/-- Whether `point * 10 ^ grid` rounds to the number. -/
def admits (x : Magnitude) (grid : Int) (point : Nat) : Bool :=
  let (scale, unit) := x.quarter grid
  let low := (4 * x.significand - if x.closeBelow then 1 else 2) * scale
  let high := (4 * x.significand + 2) * scale
  let here := point * unit
  if x.significand % 2 = 0 then low ≤ here && here ≤ high else low < here && here < high

/-- The point to take on the grid `10 ^ grid`, if one identifies the number. -/
def onGrid (x : Magnitude) (grid : Int) : Option Nat :=
  let (scale, unit) := x.quarter grid
  let value := 4 * x.significand * scale
  let below := value / unit
  let nearer := if 2 * (value % unit) < unit then [below, below + 1] else [below + 1, below]
  nearer.find? (x.admits grid)

/-- The least `k` with the number below `10 ^ k`. -/
def scale (x : Magnitude) : Int :=
  let whole := x.significand * Nat.pow 2 x.exponent.toNat / Nat.pow 2 (-x.exponent).toNat
  if whole = 0 then
    let fits (zeros : Nat) : Bool :=
      x.significand * Nat.pow 10 (zeros + 1) ≥ Nat.pow 2 (-x.exponent).toNat
    let zeros : Nat := ((List.range 400).find? fits).getD 0
    (-zeros : Int)
  else (Nat.toDigits 10 whole).length

/-- The digits as a natural number, and the power of ten that scales it. -/
def shortest (x : Magnitude) : Nat × Int :=
  let k := x.scale
  let attempt (digits : Nat) : Option (Nat × Int) :=
    let grid := k - (digits + 1 : Nat)
    (x.onGrid grid).map fun point => (point, grid)
  ((List.range 17).findSome? attempt).getD (0, 0)

end Magnitude

/-- A natural number times a power of ten, without an exponent and without trailing zeros behind
the point. -/
def positional (digits : Nat) (exponent : Int) : String :=
  let shown := Nat.toDigits 10 digits
  if 0 ≤ exponent then String.ofList (shown ++ List.replicate exponent.toNat '0')
  else
    let places := (-exponent).toNat
    let padded := List.replicate (places + 1 - shown.length) '0' ++ shown
    let cut := padded.length - places
    let fraction := ((padded.drop cut).reverse.dropWhile (· = '0')).reverse
    String.ofList (padded.take cut ++ if fraction.isEmpty then [] else '.' :: fraction)

/-- A number with the fewest digits that identify it, never with an exponent. -/
def render (x : Float) : String :=
  if x.isNaN then "NaN"
  else
    let bits := x.toBits.toNat
    let sign := if bits / Nat.pow 2 63 = 1 then "-" else ""
    if x.isInf then sign ++ "inf"
    else
      let magnitude := Magnitude.ofBits (bits % Nat.pow 2 63)
      if magnitude.significand = 0 then sign ++ "0"
      else
        let (digits, exponent) := magnitude.shortest
        sign ++ positional digits exponent

end Dialogue.Decimal
