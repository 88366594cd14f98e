import Dialogue.Settings
import Dialogue.Terminal.Stretch
import Dialogue.Terminal.Theme

set_option autoImplicit false

namespace Dialogue

/-- Turns results into lines for a terminal. It remembers the scene that it has announced and
nothing else of the dialogue. -/
structure Player where
  settings : Settings
  /-- Whether styles are shown. -/
  colored : Bool
  /-- The scene that was announced last. -/
  scene : Option String

namespace Player

open Dialogue.Terminal

def new (settings : Settings) (colored : Bool) : Player :=
  ⟨settings, colored, none⟩

/-- A text with its markup, if it has any. -/
def format (colored : Bool) (text : String) (markup : Option Markup) : String :=
  match markup with
  | some m => m.render colored
  | none => text

def stripEnd (line : List Char) : List Char :=
  (line.reverse.dropWhile (· = ' ')).reverse

/-- A text without blanks at the ends of its lines. Lines after the first are indented, unless
there is nothing on them. -/
def tidy (indent : String) (text : String) : String :=
  match Text.splitAll '\n' text.toList with
  | [] => ""
  | first :: rest =>
      String.ofList (stripEnd first ++ rest.flatMap fun line =>
        '\n' :: if line.isEmpty then [] else indent.toList ++ stripEnd line)

def textLines (p : Player) (r : TextResult) : List String :=
  if r.text.isEmpty then []
  else
    let body := format p.colored r.text r.markup
    let line := match r.speaker with
      | some speaker => Role.speaker.paint p.colored speaker ++ ": " ++ body
      | none => body
    [tidy "" line]

def optionLine (p : Player) (option : OptionView) (index : Nat) : String :=
  let number := Role.number.paint p.colored (toString (index + 1))
  let label := Role.option.paint p.colored (format p.colored option.text option.markup)
  tidy "    " (number ++ " " ++ label)

/-- Announces a scene that is not the last one announced. -/
def enterScene (p : Player) (scene : Option String) : Player × List String :=
  match scene with
  | none => (p, [])
  | some name =>
      if p.scene = some name then (p, [])
      else
        let background := match p.settings.background? name with
          | some image => " (" ++ image ++ ")"
          | none => ""
        ({ p with scene := some name },
          [Role.scene.paint p.colored ("== " ++ name ++ background ++ " ==")])

/-- The lines that show a result. -/
def present (p : Player) (result : RunResult) : Player × List String :=
  let (p, announced) := p.enterScene result.scene
  let shown := match result with
    | .text r => p.textLines r
    | .options r => r.options.zipIdx.map fun (option, index) => p.optionLine option index
    | .command r => [Role.command.paint p.colored ("<<" ++ r.command ++ ">>")]
  (p, announced ++ shown)

/-- The number of the option that a player's input names. Players count from one. -/
def pick? (input : String) (count : Nat) : Option Nat :=
  let digits := match Text.trim input.toList with
    | '+' :: cs => cs
    | cs => cs
  if digits.isEmpty || !digits.all Char.isDigit then none
  else
    let n := (Text.numeral? 10 digits).getD 0
    if 1 ≤ n && n ≤ count && n < Nat.pow 2 64 then some (n - 1) else none

/-- What is shown when the dialogue is over. -/
def farewell (colored : Bool) : String :=
  Role.farewell.paint colored "[end of dialogue]"

/-- What is shown for an input that names no option. -/
def invalidChoice (colored : Bool) (count : Nat) : String :=
  Role.failure.paint colored ("please enter a number from 1 to " ++ toString count)

end Player

end Dialogue
