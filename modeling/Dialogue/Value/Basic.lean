import Dialogue.Decimal.Read
import Dialogue.Decimal.Shortest

set_option autoImplicit false

namespace Dialogue

/-- A case that is written without its enumeration has an empty enumeration name. -/
inductive Value where
  | bool (value : Bool)
  | number (value : Float)
  | text (value : String)
  | enumCase (enum case : String)
  deriving BEq

namespace Value

/-- A number as text: as few digits as identify it, and no sign on zero. -/
def formatNumber (x : Float) : String :=
  if x == 0.0 then "0" else Decimal.render x

def toText : Value → String
  | bool b => if b then "true" else "false"
  | number x => formatNumber x
  | text s => s
  | enumCase enum case => enum ++ "." ++ case

def typeName : Value → String
  | bool _ => "bool"
  | number _ => "number"
  | text _ => "string"
  | enumCase _ _ => "enum"

/-- False, zero, no number and the empty text do not hold; every other value does. -/
def truthy : Value → Bool
  | bool b => b
  | number x => x != 0.0 && !x.isNaN
  | text s => !s.isEmpty
  | enumCase _ _ => true

/-- The number that a value counts as, if any. -/
def asNumber : Value → Option Float
  | number x => some x
  | bool b => some (if b then 1.0 else 0.0)
  | text s => Decimal.read? (Text.trim s.toList)
  | enumCase _ _ => none

def noNumber : Float :=
  0.0 / 0.0

/-- The number that a value counts as in a comparison. -/
def toNumber (v : Value) : Float :=
  v.asNumber.getD noNumber

/-- Whether a text spells a case, with the name of its enumeration or without. -/
def spells (s enum case : String) : Bool :=
  match Text.splitOnce '.' s.toList with
  | some (name, rest) => String.ofList rest == case && (name.isEmpty || String.ofList name == enum)
  | none => false

/-- Equality across types: a number equals what counts as the same number, and a case without an
enumeration equals that case of any enumeration. -/
def looseEq : Value → Value → Bool
  | enumCase a c, enumCase b d => c == d && (a.isEmpty || b.isEmpty || a == b)
  | enumCase enum case, text s => spells s enum case
  | text s, enumCase enum case => spells s enum case
  | number a, number b => a == b
  | bool a, bool b => a == b
  | text a, text b => a == b
  | number a, other => other.asNumber.any (a == ·)
  | other, number b => other.asNumber.any (· == b)
  | _, _ => false

end Value

end Dialogue
