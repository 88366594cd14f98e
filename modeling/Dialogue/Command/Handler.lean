import Dialogue.Command.Basic
import Dialogue.Text.Lower
import Dialogue.Text.Word

set_option autoImplicit false

namespace Dialogue

/-- What a command does to a store, whether it succeeds or not. -/
abbrev Handler := Command → Store → Store × Except CommandError Unit

inductive Outcome where
  | handled
  /-- The table has no handler of this name. -/
  | ignored
  | failed (cause : CommandError)
  deriving DecidableEq, Repr

abbrev Handlers := Table Handler

namespace Command

open Dialogue.Text

def endsVariable (c : Char) : Bool :=
  isBlank c || c = '='

/-- The text behind a leading `=` or `to`, either of which joins a variable to its value. -/
def dropConnector (cs : List Char) : List Char :=
  match cs with
  | '=' :: '=' :: _ => cs
  | '=' :: rest => rest
  | t :: o :: c :: rest =>
      if t.toLower = 't' && o.toLower = 'o' && isBlank c then c :: rest else cs
  | _ => cs

/-- The variable and the expression of an assignment, both as written. -/
def assignment (c : Command) : Except CommandError (String × String) :=
  let rest := trimStart ((after? c.name.toList c.raw.toList).getD [])
  let target := rest.takeWhile fun c => !endsVariable c
  let text := trim (dropConnector (trimStart (rest.dropWhile fun c => !endsVariable c)))
  if target.all (· = '$') then .error (.missingArgument c.name "a variable name")
  else if text.isEmpty then .error (.missingArgument c.name "a value")
  else .ok (String.ofList target, String.ofList text)

/-- Whether a call starts here: a name and a parenthesis. -/
def startsCall : List Char → Bool
  | c :: cs =>
      isNameStart c && (match (cs.dropWhile isWord).dropWhile isBlank with
        | '(' :: _ => true
        | _ => false)
  | [] => false

/-- Whether a text may change its value: it has an operator, a variable or a call. -/
def isSmartText : List Char → Bool
  | [] => false
  | c :: cs =>
      "+-*/%<>=!&|".toList.contains c || (c = '$' && cs.head?.any isWord) ||
        startsCall (c :: cs) || isSmartText cs

/-- Gives a case without an enumeration the given one, or else the first that declares it. -/
def qualify (s : Store) (enum : Option String) : Value → Except EvalError Value
  | .enumCase "" case =>
      match enum.or (s.enumForCase? case) with
      | some enum => s.enumCase enum case
      | none => .ok (.enumCase "" case)
  | v => .ok v

/-- The enumeration of which a variable holds a case. -/
def currentEnum? (s : Store) (target : String) : Option String :=
  match s.valueOf target with
  | .ok (.enumCase enum _) => if enum.isEmpty then none else some enum
  | _ => none

/-- Evaluates an assigned expression to a value that names its enumeration. -/
def assigned (s : Store) (enum : Option String) (text : String) : Except EvalError Value := do
  let v ← (s.drawing 0).evaluate text
  qualify s enum v

/-- Stores the value of an assignment, if it has one. -/
def store (s : Store) (target : String) (value : Except EvalError Value) :
    Store × Except CommandError Unit :=
  match value with
  | .ok v => (s.setVariable target v, .ok ())
  | .error e => (s, .error (.eval e))

def set : Handler := fun c s =>
  match c.assignment with
  | .error e => (s, .error e)
  | .ok (target, text) =>
      match (s.drawing 0).evaluate text with
      | .error e => (s, .error (.eval e))
      | .ok v => store s target (qualify s (currentEnum? (s.drawing 1) target) v)

/-- A smart variable stays declared even if it has no value yet. -/
def declare : Handler := fun c s =>
  match c.assignment with
  | .error e => (s, .error e)
  | .ok (target, text) =>
      if isSmartText text.toList then
        let s := s.setSmart target text
        match s.valueOf target with
        | .ok _ => (s, .ok ())
        | .error e => (s, .error (.eval e))
      else store s target (assigned s none text)

def stop : Handler := fun _ s =>
  (s, .ok ())

end Command

namespace Handlers

def empty : Handlers :=
  Table.empty

def register (h : Handlers) (name : String) (handler : Handler) : Handlers :=
  h.insert (Text.lower name) handler

def handles (h : Handlers) (name : String) : Bool :=
  h.contains (Text.lower name)

/-- `set` gives a variable a value, `declare` also makes variables smart, and `stop` does nothing.
-/
def default : Handlers :=
  let basic := empty.register "set" Command.set
  (basic.register "declare" Command.declare).register "stop" Command.stop

/-- Carries out a command. -/
def execute (h : Handlers) (c : Command) (s : Store) : Store × Outcome :=
  match h.get? (Text.lower c.name) with
  | none => (s, .ignored)
  | some handler =>
      match handler c s with
      | (s, .ok ()) => (s, .handled)
      | (s, .error e) => (s, .failed e)

end Handlers

end Dialogue
