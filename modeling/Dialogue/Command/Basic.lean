import Dialogue.Store.Evaluate

set_option autoImplicit false

namespace Dialogue

/-- Words separated by white space, of which the first is the name. A word may be quoted, wholly or
in part; inside quotes a backslash keeps the next character as it is. -/
structure Command where
  name : String
  args : List String
  /-- The text as written, without outer white space. -/
  raw : String
  deriving DecidableEq, Repr

/-- Why a command is not carried out. -/
inductive CommandError where
  | empty
  | unterminatedQuote (raw : String)
  | missingArgument (command what : String)
  | eval (cause : EvalError)
  deriving DecidableEq, Repr

namespace CommandError

def message : CommandError → String
  | empty => "empty command"
  | unterminatedQuote raw => "unterminated quote in command '" ++ raw ++ "'"
  | missingArgument command what => "command '" ++ command ++ "' is missing " ++ what
  | eval cause => cause.message

end CommandError

namespace Command

open Dialogue.Text

/-- The word being read. -/
structure WordState where
  letters : List Char
  /-- Quotes make a word even if nothing stands in them. -/
  quoted : Bool

namespace WordState

def fresh : WordState :=
  ⟨[], false⟩

/-- The word, if there is one. -/
def words (w : WordState) : List String :=
  if w.letters.isEmpty && !w.quoted then [] else [String.ofList w.letters]

def add (w : WordState) (c : Char) : WordState :=
  { w with letters := w.letters ++ [c] }

end WordState

/-- The words of a text, inside the given quote if there is one. Nothing if a quote stays open. -/
def words? (quote : Option Char) (w : WordState) : List Char → Option (List String)
  | [] => if quote.isNone then some w.words else none
  | c :: cs =>
      match quote with
      | some q =>
          if c = q then words? none w cs
          else if c = '\\' then
            match cs with
            | [] => words? quote w []
            | d :: rest => words? quote (w.add d) rest
          else words? quote (w.add c) cs
      | none =>
          if c = '"' || c = '\'' then words? (some c) { w with quoted := true } cs
          else if isBlank c then (words? none .fresh cs).map (w.words ++ ·)
          else words? none (w.add c) cs

/-- Reads a command. -/
def parse (text : String) : Except CommandError Command :=
  let raw := trim text.toList
  if raw.isEmpty then .error .empty
  else
    match words? none .fresh raw with
    | none => .error (.unterminatedQuote (String.ofList raw))
    | some [] => .error .empty
    | some (name :: args) => .ok ⟨name, args, String.ofList raw⟩

end Command

end Dialogue
