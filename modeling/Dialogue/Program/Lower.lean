import Dialogue.Markup.Parse
import Dialogue.Program.Basic
import Dialogue.Script.Document

set_option autoImplicit false

namespace Dialogue.Program

/-- How a once block is named, from the title of its node and its number under that title. -/
abbrev OnceNaming := String → Nat → String

def defaultOnceNaming : OnceNaming := fun title index =>
  title ++ "#once#" ++ toString index

/-- The numbers that are next. -/
structure Numbering where
  line : Nat
  once : Table Nat

namespace Numbering

def initial : Numbering :=
  ⟨0, .empty⟩

def lineTag (n : Numbering) : String :=
  lineIdMark ++ String.ofList (Nat.toDigits 16 n.line)

/-- Tags with an identifier among them. -/
def identify (n : Numbering) (tags : List String) : List String × Numbering :=
  if tags.any isLineId then (tags, n)
  else (tags ++ [n.lineTag], { n with line := n.line + 1 })

/-- The number of the next once block under a title. -/
def nextOnce (n : Numbering) (title : String) : Nat × Numbering :=
  let index := (n.once.get? title).getD 0
  (index, { n with once := n.once.insert title (index + 1) })

end Numbering

def addLastLineTag (l : Line) : Line :=
  if l.tags.contains lastLineTag then l else { l with tags := l.tags ++ [lastLineTag] }

/-- Whether options come next, commands aside. -/
def offersNext : List Instruction → Bool
  | .options _ :: _ => true
  | .command _ :: rest => offersNext rest
  | _ => false

/-- Marks each line of a block after which options are offered. -/
def markLastLines : List Instruction → List Instruction
  | [] => []
  | .line l :: rest =>
      .line (if offersNext rest then addLastLineTag l else l) :: markLastLines rest
  | i :: rest => i :: markLastLines rest

def lowerLine (n : Numbering) (l : Script.Line) : Line × Numbering :=
  let markup := Markup.parse l.text
  let (tags, n) := n.identify l.tags
  (⟨l.speaker, markup.text, tags, l.css, markup.normalized⟩, n)

def lowerChoice (n : Numbering) (c : Script.Choice) : Choice × Numbering :=
  let markup := Markup.parse c.text
  let (tags, n) := n.identify c.tags
  (⟨markup.text, tags, c.css, c.condition, markup.normalized⟩, n)

mutual

/-- The instruction of a statement; the definition of an enumeration has none. -/
def lowerStatement (naming : OnceNaming) (title : String) (n : Numbering) :
    Script.Statement → Option Instruction × Numbering
  | .line l =>
      let (l, n) := lowerLine n l
      (some (.line l), n)
  | .command content => (some (.command content), n)
  | .jump target => (some (.jump target), n)
  | .detour target => (some (.detour target), n)
  | .options choices =>
      let (choices, n) := lowerChoices naming title n choices
      (some (.options choices), n)
  | .conditional branches =>
      let (branches, n) := lowerBranches naming title n branches
      (some (.branches branches), n)
  | .once body =>
      let (index, n) := n.nextOnce title
      let (block, n) := lowerStatements naming title n body
      (some (.once (naming title index) (markLastLines block)), n)
  | .enumeration _ => (none, n)

/-- The instructions of a list of statements, before last lines are marked. -/
def lowerStatements (naming : OnceNaming) (title : String) (n : Numbering) :
    List Script.Statement → List Instruction × Numbering
  | [] => ([], n)
  | statement :: rest =>
      let (instruction, n) := lowerStatement naming title n statement
      let (instructions, n) := lowerStatements naming title n rest
      (instruction.toList ++ instructions, n)

def lowerChoices (naming : OnceNaming) (title : String) (n : Numbering) :
    List (Script.Choice × List Script.Statement) → List (Choice × List Instruction) × Numbering
  | [] => ([], n)
  | (choice, body) :: rest =>
      let (choice, n) := lowerChoice n choice
      let (block, n) := lowerStatements naming title n body
      let (choices, n) := lowerChoices naming title n rest
      ((choice, markLastLines block) :: choices, n)

def lowerBranches (naming : OnceNaming) (title : String) (n : Numbering) :
    List (Option String × List Script.Statement) →
      List (Option String × List Instruction) × Numbering
  | [] => ([], n)
  | (condition, body) :: rest =>
      let (block, n) := lowerStatements naming title n body
      let (branches, n) := lowerBranches naming title n rest
      ((condition, markLastLines block) :: branches, n)

end

/-- The scene that a node's header names. -/
def sceneOf (node : Script.Node) : Option String :=
  match node.headers.get? "scene" with
  | some value =>
      let scene := Text.trimmed value
      if scene.isEmpty then none else some scene
  | none => none

def lowerNode (naming : OnceNaming) (n : Numbering) (node : Script.Node) : Node × Numbering :=
  let (block, n) := lowerStatements naming node.title n node.body
  (⟨node.title, markLastLines block, node.conditions, node.css, sceneOf node⟩, n)

def lowerNodes (naming : OnceNaming) (n : Numbering) : List Script.Node → List Node
  | [] => []
  | node :: rest =>
      let (lowered, n) := lowerNode naming n node
      lowered :: lowerNodes naming n rest

/-- Nodes by title, those of one title in order. -/
def groupNodes (nodes : List Node) : Table (List Node) :=
  nodes.foldl (fun groups node =>
    groups.insert node.title ((groups.get? node.title).getD [] ++ [node])) .empty

/-- The program of a script. The last definition of an enumeration counts. -/
def ofDocument (naming : OnceNaming) (d : Script.Document) : Program :=
  ⟨.ofList (d.enums.map fun e => (e.name, e.cases)),
    groupNodes (lowerNodes naming .initial d.nodes)⟩

/-- Reads and lowers a script, with the default names for once blocks. -/
def ofSource (source : String) : Except Script.ParseError Program :=
  (Script.parse source).map (ofDocument defaultOnceNaming)

end Dialogue.Program
