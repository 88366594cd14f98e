import Dialogue.Program.Basic
import Dialogue.Text.Blank
import Dialogue.Value.Basic

set_option autoImplicit false

namespace Dialogue

/-- Why an expression has no value. -/
inductive EvalError where
  | unknownFunction (name : String)
  | unknownVariable (name : String)
  | invalidEnumCase (enum case : String)
  | notANumber (op value : String)
  /-- The text is no expression. -/
  | malformed (text : String)
  | functionFailed (name reason : String)
  /-- Smart variables refer to each other too deeply. -/
  | recursionLimit (name : String)
  /-- Functions that ask the store call each other too deeply. -/
  | callLimit (asked : String)
  deriving DecidableEq, Repr

namespace EvalError

def message : EvalError → String
  | unknownFunction name => "unknown function '" ++ name ++ "'"
  | unknownVariable name => "unknown variable '$" ++ name ++ "'"
  | invalidEnumCase enum case => "'" ++ case ++ "' is not a case of enum '" ++ enum ++ "'"
  | notANumber op value => "'" ++ value ++ "' is not a number (operator '" ++ op ++ "')"
  | malformed text => "syntax error in '" ++ text ++ "'"
  | functionFailed name reason => "function '" ++ name ++ "' failed: " ++ reason
  | recursionLimit name => "smart variable '$" ++ name ++ "' refers to itself too deeply"
  | callLimit asked => "functions ask for '" ++ asked ++ "' too deeply"

end EvalError

/-- What random functions draw in an evaluation: at every place in it, a number from zero up to
one. -/
abbrev Draws := List Nat → Float

/-- The draws inside the part `n` of an evaluation. -/
def Draws.part (draws : Draws) (n : Nat) : Draws :=
  fun place => draws (n :: place)

/-- What a function sees of the store that it is called from. -/
structure View where
  vars : Table Value
  isSmart : String → Bool
  enums : EnumTable
  visits : String → Nat
  hasFunction : String → Bool

/-- What a function may ask besides. It numbers its draws and its questions, and what is left to
chance comes out anew in each. -/
structure Access extends View where
  draw : Nat → Float
  /-- The value of a variable, smart ones included. -/
  read : Nat → String → Except EvalError Value
  /-- The value of the expression that a text spells. -/
  evaluate : Nat → String → Except EvalError Value
  /-- The values of all variables. -/
  snapshot : Nat → Table Value

/-- A function that expressions can call. -/
abbrev Function := Access → List Value → Except EvalError Value

/-- Variables, and everything else that an expression can refer to. A plain variable holds a value;
a smart one holds the text of an expression, which is evaluated whenever the variable is read. -/
structure Store where
  vars : Table Value
  /-- The expression texts of the smart variables. -/
  smart : Table String
  enums : EnumTable
  functions : Table Function
  /-- How often each node has been left. -/
  visits : Table Nat
  /-- How deep functions that ask the store may call each other. -/
  calls : Nat
  /-- The draws of every step. -/
  chance : Nat → Draws
  /-- The present step. -/
  turn : Nat

namespace Store

/-- A variable's name without white space and without its marks. -/
def bareName (name : String) : String :=
  String.ofList ((Text.trim name.toList).dropWhile (· = '$'))

/-- The plain value of a variable. -/
def plain? (s : Store) (name : String) : Option Value :=
  s.vars.get? (bareName name)

def isSmart (s : Store) (name : String) : Bool :=
  s.smart.contains (bareName name)

/-- Makes a variable plain and gives it a value. -/
def setVariable (s : Store) (name : String) (value : Value) : Store :=
  { s with
    vars := s.vars.insert (bareName name) value
    smart := s.smart.erase (bareName name) }

/-- Makes a variable smart and forgets its value. -/
def setSmart (s : Store) (name text : String) : Store :=
  { s with
    vars := s.vars.erase (bareName name)
    smart := s.smart.insert (bareName name) (Text.trimmed text) }

def visitCount (s : Store) (title : String) : Nat :=
  (s.visits.get? title).getD 0

def recordVisit (s : Store) (title : String) : Store :=
  { s with visits := s.visits.insert title (s.visitCount title + 1) }

/-- Adds a function, in place of one of the same name. -/
def register (s : Store) (name : String) (f : Function) : Store :=
  { s with functions := s.functions.insert name f }

def hasFunction (s : Store) (name : String) : Bool :=
  s.functions.contains name

def view (s : Store) : View where
  vars := s.vars
  isSmart := s.isSmart
  enums := s.enums
  visits := s.visitCount
  hasFunction := s.hasFunction

def draws (s : Store) : Draws :=
  s.chance s.turn

/-- The store in the evaluation `n` of several, which draw apart from each other. -/
def drawing (s : Store) (n : Nat) : Store :=
  { s with chance := fun turn => (s.chance turn).part n }

/-- The store in the next step, which draws anew. -/
def renewed (s : Store) : Store :=
  { s with turn := s.turn + 1 }

/-- The first enumeration that declares a case. -/
def enumForCase? (s : Store) (case : String) : Option String :=
  (s.enums.entries.find? fun e => e.2.contains case).map (·.1)

/-- A case of an enumeration. A known enumeration must declare it. -/
def enumCase (s : Store) (enum case : String) : Except EvalError Value :=
  match s.enums.get? enum with
  | some cases =>
      if cases.contains case then .ok (.enumCase enum case) else .error (.invalidEnumCase enum case)
  | none => .ok (.enumCase enum case)

end Store

end Dialogue
