import Dialogue.Console.Compile
import Dialogue.Console.Play

set_option autoImplicit false

namespace Dialogue.Console

/-- Why a file of the system cannot be used. -/
def Fault.ofError : IO.Error → Fault
  | .noFileOrDirectory .. => .missing
  | e => .other (toString e)

def attempt {α : Type} (action : IO α) : IO (Except Fault α) := do
  try
    return .ok (← action)
  catch e =>
    return .error (Fault.ofError e)

/-- More steps than any dialogue takes. -/
def endless : Nat :=
  Nat.pow 2 62

/-- The bytes of a line, behind those that have been taken. -/
def takeBytes (input : IO.FS.Stream) : Nat → List UInt8 → IO (List UInt8)
  | 0, taken => return taken.reverse
  | patience + 1, taken => do
      match (← input.read 1).data.toList with
      | byte :: _ =>
          if byte = World.lineFeed then return (byte :: taken).reverse
          else takeBytes input patience (byte :: taken)
      | [] => return taken.reverse

/-- A line of input without its end, unless the input has ended. -/
def askLine : IO (Except Fault (Option String)) := do
  (← IO.getStdout).flush
  let bytes ← takeBytes (← IO.getStdin) endless []
  return World.decodeLine bytes

/-- Draws that a seed determines. -/
def drawsOf (seed : UInt64) : Nat → Draws := fun turn place =>
  let mixed := (turn :: place).foldl (fun mixed n => mixHash mixed (hash n)) seed
  Float.ofNat (mixed.toNat / 2048) / Float.ofNat (Nat.pow 2 53)

def askDraws : IO (Nat → Draws) := do
  let bytes ← IO.getRandomBytes 8
  return drawsOf (bytes.foldl (fun seed byte => 256 * seed + byte.toUInt64) 0)

/-- Carries out a task on the system. -/
def Task.perform : Task → IO UInt32
  | .exit code => return code.toUInt32
  | .print text next => do
      IO.print text
      (next ()).perform
  | .complain text next => do
      IO.eprint text
      (next ()).perform
  | .read path next => do
      let found ← attempt (IO.FS.readFile path)
      (next found).perform
  | .write path text next => do
      let done ← attempt (IO.FS.writeFile path text)
      (next done).perform
  | .line next => do
      let line ← attempt askLine
      (next (line.bind id)).perform
  | .draw next => do
      let draws ← askDraws
      (next draws).perform

end Dialogue.Console

open Dialogue.Console in
def main (args : List String) : IO UInt32 := do
  match args with
  | "play" :: rest =>
      let colored ← (← IO.getStdout).isTty
      (play colored endless rest).perform
  | args => (Order.ofArgs args).task.perform
