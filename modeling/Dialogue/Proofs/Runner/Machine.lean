import Dialogue.Runner.Step

set_option autoImplicit false

namespace Dialogue

/-- What goes on once everything above it on the stack is done. -/
inductive Continuation where
  /-- The rest of a nested block. -/
  | block (rest : Block)
  /-- The node that a detour returns to, with the rest of its own list. -/
  | detour (title : String) (member : Nat) (rest : Block)

namespace Continuation

def isBlock : Continuation → Bool
  | block _ => true
  | detour _ _ _ => false

end Continuation

/-- A machine that holds the instructions that are still to come, where a runner holds numbers and
paths by which it finds them. The two share the stage on which they play. -/
structure Machine extends Stage where
  title : String
  /-- Which node of the title's group is running. -/
  member : Nat
  /-- The rest of the node's own list. -/
  rest : Block
  /-- Innermost continuation first. -/
  stack : List Continuation
  /-- The blocks of the options that are on offer. -/
  pending : Option (List Block)

namespace Machine

open Runner (Step Signal)

def initial (p : Program) (s : Setup) : Machine where
  toStage := s.stage p
  title := ""
  member := 0
  rest := []
  stack := []
  pending := none

def node? (m : Machine) : Option Node :=
  m.program.nodeAt? m.title m.member

def enter (m : Machine) (title : String) : Except RuntimeError Machine :=
  match m.select title with
  | .error e => .error e
  | .ok (member, node, stage) =>
      .ok { m with toStage := stage, title := title, member := member, rest := node.instructions }

def emit (m : Machine) (result : RunResult) (visitRecorded : Bool) : Machine :=
  match result.closes, m.stack with
  | true, .detour title member rest :: below =>
      let stage := if visitRecorded then m.toStage else m.recordVisit m.title
      { m with
        toStage := stage.present result
        title := title
        member := member
        rest := rest
        stack := below }
  | _, _ => { m with toStage := m.present result }

def openBlock (m : Machine) (block : Block) : Machine :=
  { m with stack := .block block :: m.stack }

def transfer (m : Machine) (target : String) : Step Machine :=
  match m.enter target with
  | .ok m => .running m
  | .error e => .faulted m e

/-- Leaves the current node, with every block above the nearest detour. -/
def depart (m : Machine) : Machine :=
  { m with toStage := m.recordVisit m.title, stack := m.stack.dropWhile Continuation.isBlock }

def save (m : Machine) : Machine :=
  { m with stack := .detour m.title m.member m.rest :: m.stack }

/-- The options that are offered, with their numbers in the instruction. -/
def offered (m : Machine) (choices : List (Choice × Block)) : List ((Choice × Block) × Nat) :=
  choices.zipIdx.filter fun c => m.meets c.2 c.1.1.condition

/-- The block of the first branch whose condition holds. -/
def taken? (m : Machine) (branches : List (Option String × Block)) : Option Block :=
  (branches.zipIdx.find? fun b => m.meets b.2 b.1.1).map fun b => b.1.2

def offer (m : Machine) (node : Node) (atEnd : Bool) (visible : List ((Choice × Block) × Nat)) :
    Machine :=
  let views := visible.map fun c => m.optionView c.2 c.1.1
  let blocks := visible.map fun c => c.1.2
  { m with pending := some blocks }.emit (.options ⟨views, node.style, node.scene, atEnd⟩) false

/-- Executes an instruction. `atEnd` says that it is the last of the node's own list. -/
def exec (m : Machine) (node : Node) (atEnd : Bool) : Instruction → Step Machine
  | .line l => .suspended (m.emit (.text (m.textResult node l atEnd)) false)
  | .command content =>
      .suspended ({ m with toStage := m.dispatch content }.emit (.command ⟨content, atEnd⟩) false)
  | .jump target => m.depart.transfer target
  | .detour target => m.save.transfer target
  | .options choices =>
      match m.offered choices with
      | [] => .running m
      | visible => .suspended (m.offer node atEnd visible)
  | .branches branches =>
      match m.taken? branches with
      | some block => .running (m.openBlock block)
      | none => .running m
  | .once id block =>
      if m.ledger.blockSeen id then .running m
      else .running ({ m with ledger := m.ledger.markBlock id }.openBlock block)

def endNode (m : Machine) (node : Node) : Machine :=
  { m with toStage := m.leave m.title m.stack.isEmpty }.emit (.closing node) true

def stepNode (m : Machine) (node : Node) : Step Machine :=
  match m.rest with
  | [] => .suspended (m.endNode node)
  | i :: rest => exec { m with toStage := m.renewed, rest := rest } node rest.isEmpty i

def stepBlock (m : Machine) (node : Node) (rest : Block) (below : List Continuation) :
    Step Machine :=
  match rest with
  | [] => .running { m with stack := below }
  | i :: rest =>
      exec { m with toStage := m.renewed, stack := .block rest :: below } node false i

/-- Executes the next instruction. -/
def step (m : Machine) : Step Machine :=
  match m.node? with
  | none => .faulted m (.unknownNode m.title)
  | some node =>
      match m.stack with
      | .block rest :: below => m.stepBlock node rest below
      | _ => m.stepNode node

def run (fuel : Nat) (m : Machine) : Machine × Signal :=
  Runner.runBy step fuel m

def start (fuel : Nat) (p : Program) (s : Setup) : Machine × Signal :=
  match (initial p s).enter s.start with
  | .ok m => m.run fuel
  | .error e => (initial p s, .faulted e)

def choose (m : Machine) (choice : Option Nat) : Except RuntimeError Machine :=
  if m.finished then .error .dialogueFinished
  else
    match m.pending with
    | none => .ok m
    | some blocks =>
        match choice with
        | none => .error .optionRequired
        | some index =>
            match blocks[index]? with
            | none => .error (.invalidOption index blocks.length)
            | some block => .ok ({ m with pending := none }.openBlock block)

def advance (fuel : Nat) (m : Machine) (choice : Option Nat) : Machine × Signal :=
  match m.choose choice with
  | .ok m => m.run fuel
  | .error e => (m, .faulted e)

end Machine

end Dialogue
