import Dialogue.Console.Task
import Dialogue.Program.Lower
import Dialogue.Program.Ron
import Dialogue.Program.Validate

set_option autoImplicit false

namespace Dialogue.Console

def usage : String :=
  "Usage:\n  parley_script compile <file.parley> [--out <out.ron>]\n" ++
    "  parley_script lint <file.parley>"

def compileUsage : String :=
  "Usage: parley_script compile <file.parley> [--out <out.ron>]"

def lintUsage : String :=
  "Usage: parley_script lint <file.parley>"

/-- What a call asks for. -/
inductive Order where
  | compile (path : String) (out : Option String)
  | lint (path : String)
  /-- The call makes no sense; the text says why. -/
  | misuse (reason : String)
  deriving DecidableEq, Repr

namespace Order

/-- The arguments of a compilation: the first path counts, and the last place for the output. -/
def ofCompileArgs (path out : Option String) : List String → Order
  | [] =>
      match path with
      | some path => .compile path out
      | none => .misuse compileUsage
  | ["--out"] => .misuse "--out requires a filepath"
  | arg :: rest =>
      if arg = "--out" then
        match rest with
        | place :: rest => ofCompileArgs path (some place) rest
        | [] => .misuse "--out requires a filepath"
      else ofCompileArgs (path.orElse fun _ => some arg) out rest

def ofCommand : List String → Order
  | [] => .misuse usage
  | command :: rest =>
      if command = "compile" then ofCompileArgs none none rest
      else if command = "lint" then
        match rest with
        | path :: _ => .lint path
        | [] => .misuse lintUsage
      else .misuse ("unknown command: " ++ command ++ "\n" ++ usage)

/-- The order that arguments spell. A dash pair in front is passed over. -/
def ofArgs : List String → Order
  | [] => ofCommand []
  | first :: rest => if first = "--" then ofCommand rest else ofCommand (first :: rest)

end Order

/-- Reads a script and goes on with the document that it spells. -/
def withDocument (path : String) (next : Script.Document → Task) : Task :=
  .read path fun
    | .error fault => .leave 1 ("error: unable to read '" ++ path ++ "': " ++ fault.message)
    | .ok source =>
        match Script.parse source with
        | .error e => .leave 1 ("parse error: " ++ path ++ ":" ++ e.message)
        | .ok document => next document

/-- What is said about a program that nests too deep to be written. -/
def tooDeep : String :=
  "Exceeded recursion limit, try increasing `ron::Options::recursion_limit` and using `stacker` " ++
    "to protect against a stack overflow"

def compile (path : String) (out : Option String) : Task :=
  withDocument path fun document =>
    let program := Program.ofDocument Program.defaultOnceNaming document
    match program.prettyText? with
    | none => .leave 1 ("error: serializing program: " ++ tooDeep)
    | some text =>
        match out with
        | none => .print (text ++ "\n") fun _ => .exit 0
        | some place => .write place text fun
            | .error fault => .leave 1 ("error: writing '" ++ place ++ "': " ++ fault.message)
            | .ok () =>
                let count := toString program.allNodes.length
                .leave 0
                  ("compiled " ++ count ++ " node(s) from '" ++ path ++ "' into '" ++ place ++ "'")

/-- What is said about nodes in which nothing happens. -/
def emptyBodies (document : Script.Document) : List String :=
  (document.nodes.filter fun node => node.body.isEmpty).map fun node =>
    "warning: node '" ++ node.title ++ "' (line " ++ toString node.line ++ ") has an empty body\n"

def lint (path : String) : Task :=
  withDocument path fun document =>
    .complain (String.join (emptyBodies document)) fun _ =>
      match (Program.ofDocument Program.defaultOnceNaming document).validate with
      | [] => .print (path ++ ": ok\n") fun _ => .exit 0
      | findings =>
          let shown := findings.map fun finding => path ++ ": " ++ finding.message ++ "\n"
          .leave 1 (String.join shown ++ toString findings.length ++ " problem(s) found")

/-- What the command line does with its arguments. -/
def Order.task : Order → Task
  | .compile path out => Console.compile path out
  | .lint path => Console.lint path
  | .misuse reason => .leave 2 reason

end Dialogue.Console
