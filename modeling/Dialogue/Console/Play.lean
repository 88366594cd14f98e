import Dialogue.Console.Task
import Dialogue.Player
import Dialogue.Program.Ron
import Dialogue.Runner.Step

set_option autoImplicit false

namespace Dialogue.Console

open Dialogue.Terminal

/-- A failure with what was being done at each level, outermost first. -/
abbrev Chain := List String

namespace Chain

/-- A cause with its later lines indented by `indent`. -/
def cause (first indent text : String) : String :=
  first ++ Text.join ("\n" ++ indent)
    ((Text.splitAll '\n' text.toList).map String.ofList)

/-- The causes under the first line; several are numbered. -/
def render : Chain → String
  | [] => "Error"
  | [single] => "Error: " ++ single
  | [outer, inner] => "Error: " ++ outer ++ "\n\nCaused by:\n" ++ cause "    " "    " inner
  | outer :: causes =>
      "Error: " ++ outer ++ "\n\nCaused by:\n" ++
        Text.join "\n" (causes.zipIdx.map fun (text, index) =>
          cause ("    " ++ toString index ++ ": ") "       " text)

end Chain

def abort (chain : Chain) : Task :=
  .leave 1 chain.render

/-- A dialogue under way. -/
structure Session where
  runner : Runner
  player : Player

/-- What a session waits for after it has shown a result. -/
inductive Demand where
  | nothing
  | line
  | choice (count : Nat)
  deriving DecidableEq, Repr

namespace Demand

def ofResult : RunResult → Demand
  | .options r => .choice r.options.length
  | .text r => if r.text.isEmpty then .nothing else .line
  | .command _ => .nothing

end Demand

/-- Lines, each with its end. -/
def lines (texts : List String) : String :=
  String.join (texts.map (· ++ "\n"))

section Demand

variable (colored : Bool) (ended : Except Fault Unit → Task)

/-- Asks until the input names an option, at most so many times. Without input, and when it cannot
be read, the dialogue has ended. -/
def askChoice (count : Nat) (next : Nat → Task) : Nat → Task
  | 0 => ended (.ok ())
  | patience + 1 =>
      .print "> " fun _ => .line fun
        | .error fault => ended (.error fault)
        | .ok none => ended (.ok ())
        | .ok (some input) =>
            match Player.pick? input count with
            | some choice => next choice
            | none => .print (Player.invalidChoice colored count ++ "\n") fun _ =>
                askChoice count next patience

/-- Meets a demand and goes on with the choice, if there is one. -/
def Demand.meet (patience : Nat) (next : Option Nat → Task) : Demand → Task
  | .nothing => next none
  | .line => .line fun
      | .error fault => ended (.error fault)
      | .ok none => ended (.ok ())
      | .ok (some _) => next none
  | .choice count => askChoice colored ended count (fun choice => next (some choice)) patience

end Demand

namespace Session

/-- Goes on after a choice. -/
def advance (s : Session) (patience : Nat) (choice : Option Nat) : Session × Runner.Signal :=
  let (runner, signal) := s.runner.advance patience choice
  ({ s with runner := runner }, signal)

/-- Plays on from the current result, for at most so many results. The dialogue has ended well with
its last result, with a failure that was shown and with the input, and badly if the input could not
be read. -/
def task (patience : Nat) (ended : Except Fault Unit → Task) : Nat → Session → Task
  | 0, _ => ended (.ok ())
  | fuel + 1, s =>
      match s.runner.current with
      | none => ended (.ok ())
      | some result =>
          let (player, shown) := s.player.present result
          let s := { s with player := player }
          .print (lines shown) fun _ =>
            if s.runner.finished then
              .print (Player.farewell player.colored ++ "\n") fun _ => ended (.ok ())
            else
              (Demand.ofResult result).meet player.colored ended patience fun choice =>
                match s.advance patience choice with
                | (s, .suspended) => task patience ended fuel s
                | (_, .faulted e) =>
                    .print (Role.failure.paint player.colored e.message ++ "\n") fun _ =>
                      ended (.ok ())
                | (_, .exhausted) => ended (.ok ())

end Session

/-- A text in the middle of so many columns. -/
def centered (width : Nat) (text : String) : String :=
  let room := width - text.length
  let before := List.replicate (room / 2) ' '
  let after := List.replicate (room - room / 2) ' '
  String.ofList (before ++ text.toList ++ after)

def banner (colored : Bool) : String :=
  Role.banner.paint colored (centered 60 "PARLEY")

/-- Ends the command line as the dialogue has ended. -/
def conclude : Except Fault Unit → Task
  | .ok () => .exit 0
  | .error fault => abort [fault.message]

/-- Starts a program and plays it. -/
def begin (colored : Bool) (patience : Nat) (settings : Settings) (program : Program) : Task :=
  .draw fun chance =>
    match Runner.start patience program { settings.setup with chance := chance } with
    | (_, .faulted e) => abort ["while starting the dialogue", e.message]
    | (_, .exhausted) => .exit 0
    | (runner, .suspended) => .print (banner colored ++ "\n") fun _ =>
        Session.task patience conclude patience ⟨runner, .new settings colored⟩

def loadProgram (settings : Settings) (next : Program → Task) : Task :=
  let outer := "while loading compiled program"
  .read settings.program fun
    | .error fault =>
        abort [outer, "reading program from '" ++ settings.program ++ "'", fault.message]
    | .ok text =>
        match Program.ofText? text with
        | none => abort [outer, "parsing program RON from '" ++ settings.program ++ "'",
            Program.LoadError.malformed.message]
        | some program => next program

def loadSettings (path : String) (next : Settings → Task) : Task :=
  let outer := "while loading player config"
  .read path fun
    | .error fault => abort [outer, "reading config from '" ++ path ++ "'", fault.message]
    | .ok text =>
        match Settings.ofText? path text with
        | none => abort [outer, "parsing config TOML from '" ++ path ++ "'", "malformed settings"]
        | some settings => next settings

/-- What the command line does with its arguments, the first of which names the settings. -/
def play (colored : Bool) (patience : Nat) (args : List String) : Task :=
  loadSettings (args.head?.getD Settings.defaultPath) fun settings =>
    loadProgram settings fun program => begin colored patience settings program

end Dialogue.Console
