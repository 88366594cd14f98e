import Dialogue.Script.Token

set_option autoImplicit false

namespace Dialogue.Script

/-- A block command that is incomplete or out of place. -/
inductive BlockFault where
  | missingTarget
  | missingCondition
  | strayOnceEnd
  | strayCase
  | unnamedEnum
  | foreignCommand (enum command : String)
  | unclosedEnum (enum : String)
  | foreignToken (found : Token)

/-- A part of a conditional without the rest. -/
inductive ConditionalFault where
  | strayCommand (command : String)
  | strayMarker (marker : String)
  | unclosedCommand (found : Token)
  | unclosedMarker (found : Token)

inductive ParseCause where
  | missingTitle
  | unexpectedToken (expected : String) (found : Token)
  | malformedBlock (fault : BlockFault)
  | unmatchedConditional (fault : ConditionalFault)

structure ParseError where
  position : Position
  cause : ParseCause

namespace BlockFault

/-- The kind of block that messages blame. -/
def block : BlockFault → String
  | missingTarget => "jump"
  | missingCondition => "if"
  | strayOnceEnd => "once"
  | _ => "enum"

def reason : BlockFault → String
  | missingTarget => "missing target node"
  | missingCondition => "missing condition"
  | strayOnceEnd => "<<endonce>> without <<once>>"
  | strayCase => "case outside of an enum block"
  | unnamedEnum => "enum has no name"
  | foreignCommand enum command => "unexpected <<" ++ command ++ ">> in enum '" ++ enum ++ "'"
  | unclosedEnum enum => "enum '" ++ enum ++ "' is missing <<endenum>>"
  | foreignToken found => "expected <<case ...>> or <<endenum>>, found " ++ found.describe

end BlockFault

namespace ConditionalFault

def reason : ConditionalFault → String
  | strayCommand command => "<<" ++ command ++ ">> without a matching <<if>>"
  | strayMarker marker => "'" ++ marker ++ "' without a matching \x7bif\x7d"
  | unclosedCommand found =>
      "<<if>> opened here is not closed by <<endif>> (found " ++ found.describe ++ ")"
  | unclosedMarker found =>
      "\x7bif\x7d opened here is not closed by \x7bendif\x7d (found " ++ found.describe ++ ")"

end ConditionalFault

namespace ParseCause

def message : ParseCause → String
  | missingTitle => "node has no title header"
  | unexpectedToken expected found => "expected " ++ expected ++ ", found " ++ found.describe
  | malformedBlock fault => "malformed " ++ fault.block ++ " block: " ++ fault.reason
  | unmatchedConditional fault => "unmatched conditional: " ++ fault.reason

end ParseCause

namespace ParseError

def message (e : ParseError) : String :=
  toString e.position.line ++ ":" ++ toString e.position.column ++ ": " ++ e.cause.message

/-- Another token was due where `found` stands. -/
def unexpected (expected : String) (found : Token) : ParseError :=
  ⟨found.position, .unexpectedToken expected found⟩

end ParseError

end Dialogue.Script
