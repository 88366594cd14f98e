import Dialogue.Console.Folder
import Dialogue.Store.Basic

set_option autoImplicit false

namespace Dialogue.Console

/-- What a command line does next, and how it goes on with the answer. -/
inductive Task where
  | exit (code : Nat)
  | print (text : String) (next : Unit → Task)
  /-- Prints where errors go. -/
  | complain (text : String) (next : Unit → Task)
  | read (path : String) (next : Except Fault String → Task)
  | write (path text : String) (next : Except Fault Unit → Task)
  /-- Asks for a line of input; there is none when the input has ended. -/
  | line (next : Except Fault (Option String) → Task)
  /-- Asks for the draws of every step that is to come. -/
  | draw (next : (Nat → Draws) → Task)

/-- What surrounds a command line. -/
structure World where
  folder : Folder
  /-- The bytes that have not been read yet. -/
  input : List UInt8
  printed : List String
  complained : List String

namespace World

def ofFolder (folder : Folder) (input : List UInt8) : World :=
  ⟨folder, input, [], []⟩

def stdout (w : World) : String :=
  String.join w.printed

def stderr (w : World) : String :=
  String.join w.complained

/-- A line without the characters that end it. -/
def stripBreak (cs : List Char) : List Char :=
  (cs.reverse.dropWhile fun c => c = '\n' || c = '\r').reverse

def lineFeed : UInt8 :=
  10

/-- The line that bytes encode, the one that ends it included; none if there are no bytes. -/
def decodeLine (bytes : List UInt8) : Except Fault (Option String) :=
  if bytes.isEmpty then .ok none
  else
    match String.fromUTF8? ⟨bytes.toArray⟩ with
    | some text => .ok (some (String.ofList (stripBreak text.toList)))
    | none => .error .undecodable

/-- Takes a line from the input, also one that cannot be decoded. -/
def takeLine (w : World) : Except Fault (Option String) × World :=
  let line := w.input.takeWhile (· ≠ lineFeed)
  let rest := w.input.dropWhile (· ≠ lineFeed)
  (decodeLine (line ++ rest.take 1), { w with input := rest.drop 1 })

end World

namespace Task

/-- The draws where nothing is left to chance. -/
def evenDraws : Nat → Draws :=
  fun _ _ => 0.5

/-- Carries out a task and tells its exit code. -/
def run : Task → World → Nat × World
  | exit code, w => (code, w)
  | print text next, w => run (next ()) { w with printed := w.printed ++ [text] }
  | complain text next, w => run (next ()) { w with complained := w.complained ++ [text] }
  | read path next, w => run (next (w.folder.read path)) w
  | write path text next, w =>
      match w.folder.write path text with
      | .ok folder => run (next (.ok ())) { w with folder := folder }
      | .error fault => run (next (.error fault)) w
  | line next, w => run (next w.takeLine.1) w.takeLine.2
  | draw next, w => run (next evenDraws) w

/-- Says a last word where errors go, and exits. -/
def leave (code : Nat) (text : String) : Task :=
  complain (text ++ "\n") fun _ => exit code

end Task

end Dialogue.Console
