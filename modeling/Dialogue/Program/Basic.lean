import Dialogue.Markup.Basic

set_option autoImplicit false

namespace Dialogue

/-- The tag of the last line before options are offered. -/
def lastLineTag : String :=
  "lastline"

/-- How the tag starts that carries a line's identifier. -/
def lineIdMark : String :=
  "line:"

def isLineId (tag : String) : Bool :=
  lineIdMark.toList.isPrefixOf tag.toList

/-- The identifier of a line or an option: its first identifier tag. -/
def lineId? (tags : List String) : Option String :=
  tags.find? isLineId

structure Line where
  speaker : Option String
  text : String
  tags : List String
  style : Option String
  markup : Option Markup
  deriving BEq

/-- An option as offered; the block it opens stands beside it. -/
structure Choice where
  text : String
  tags : List String
  style : Option String
  condition : Option String
  markup : Option Markup
  deriving BEq

inductive Instruction where
  | line (line : Line)
  | command (content : String)
  | jump (target : String)
  | detour (target : String)
  | options (choices : List (Choice × List Instruction))
  /-- A branch without a condition is taken whenever it is reached. -/
  | branches (branches : List (Option String × List Instruction))
  | once (id : String) (block : List Instruction)

abbrev Block := List Instruction

structure Node where
  title : String
  instructions : Block
  /-- All of these must hold for the node to be selected from its group. -/
  conditions : List String
  style : Option String
  scene : Option String

/-- The cases of each enumeration, in order. -/
abbrev EnumTable := Table (List String)

/-- A title names a group of nodes, one of which is selected whenever the title is entered. -/
structure Program where
  enums : EnumTable
  nodes : Table (List Node)

namespace Instruction

/-- The blocks that an instruction owns, in order. -/
def blocks : Instruction → List Block
  | options choices => choices.map (·.2)
  | branches bs => bs.map (·.2)
  | once _ block => [block]
  | _ => []

/-- The title that an instruction hands over to. -/
def target? : Instruction → Option String
  | jump target => some target
  | detour target => some target
  | _ => none

/-- The identifiers that an instruction itself carries, one for each line or option. -/
def ownIds : Instruction → List (Option String)
  | line l => [lineId? l.tags]
  | options choices => choices.map fun c => lineId? c.1.tags
  | _ => []

end Instruction

mutual

/-- The identifiers in an instruction: its own, then those of its blocks. -/
def Instruction.lineIds : Instruction → List (Option String)
  | .line l => [lineId? l.tags]
  | .options choices => choices.map (fun c => lineId? c.1.tags) ++ choicesLineIds choices
  | .branches bs => branchesLineIds bs
  | .once _ block => blockLineIds block
  | .command _ | .jump _ | .detour _ => []

def blockLineIds : List Instruction → List (Option String)
  | [] => []
  | i :: rest => i.lineIds ++ blockLineIds rest

def choicesLineIds : List (Choice × List Instruction) → List (Option String)
  | [] => []
  | (_, block) :: rest => blockLineIds block ++ choicesLineIds rest

def branchesLineIds : List (Option String × List Instruction) → List (Option String)
  | [] => []
  | (_, block) :: rest => blockLineIds block ++ branchesLineIds rest

end

mutual

def Instruction.beq : Instruction → Instruction → Bool
  | .line a, .line b => a == b
  | .command a, .command b => a == b
  | .jump a, .jump b => a == b
  | .detour a, .detour b => a == b
  | .options a, .options b => choicesBeq a b
  | .branches a, .branches b => branchesBeq a b
  | .once i a, .once j b => i == j && blockBeq a b
  | _, _ => false

def blockBeq : List Instruction → List Instruction → Bool
  | [], [] => true
  | i :: rest, j :: others => i.beq j && blockBeq rest others
  | _, _ => false

def choicesBeq :
    List (Choice × List Instruction) → List (Choice × List Instruction) → Bool
  | [], [] => true
  | (c, a) :: rest, (d, b) :: others => c == d && blockBeq a b && choicesBeq rest others
  | _, _ => false

def branchesBeq :
    List (Option String × List Instruction) → List (Option String × List Instruction) → Bool
  | [], [] => true
  | (c, a) :: rest, (d, b) :: others => c == d && blockBeq a b && branchesBeq rest others
  | _, _ => false

end

instance : BEq Instruction :=
  ⟨Instruction.beq⟩

deriving instance BEq for Node

deriving instance BEq for Program

namespace Program

def empty : Program :=
  ⟨.empty, .empty⟩

/-- The nodes that share a title, in order. -/
def group? (p : Program) (title : String) : Option (List Node) :=
  p.nodes.get? title

/-- The node at a place in the group of a title. -/
def nodeAt? (p : Program) (title : String) (member : Nat) : Option Node :=
  (p.group? title).bind fun group => group[member]?

def allNodes (p : Program) : List Node :=
  p.nodes.entries.flatMap (·.2)

def lineIds (p : Program) : List (Option String) :=
  p.allNodes.flatMap fun node => blockLineIds node.instructions

end Program

end Dialogue
