import Dialogue.Command.Handler

set_option autoImplicit false

namespace Dialogue

structure TextResult where
  text : String := ""
  speaker : Option String := none
  tags : List String := []
  style : Option String := none
  markup : Option Markup := none
  nodeStyle : Option String
  scene : Option String
  endsNode : Bool

/-- An option that is offered. -/
structure OptionView where
  text : String
  tags : List String
  style : Option String
  markup : Option Markup

structure OptionsResult where
  options : List OptionView
  nodeStyle : Option String
  scene : Option String
  endsNode : Bool

structure CommandResult where
  command : String
  endsNode : Bool

inductive RunResult where
  | text (result : TextResult)
  | options (result : OptionsResult)
  | command (result : CommandResult)

namespace RunResult

/-- Whether the result closes the node that it comes from. -/
def endsNode : RunResult → Bool
  | text r => r.endsNode
  | options r => r.endsNode
  | command r => r.endsNode

def isOptions : RunResult → Bool
  | options _ => true
  | _ => false

/-- Whether the result leaves the node that it comes from. Options do not, since what they lead to
still belongs to the node. -/
def closes (result : RunResult) : Bool :=
  result.endsNode && !result.isOptions

@[simp] theorem closes_text (r : TextResult) : (text r).closes = r.endsNode := by
  simp [closes, endsNode, isOptions]

@[simp] theorem closes_command (r : CommandResult) : (command r).closes = r.endsNode := by
  simp [closes, endsNode, isOptions]

@[simp] theorem closes_options (r : OptionsResult) : (options r).closes = false := by
  simp [closes, isOptions]

/-- The result of a node that has no more instructions. -/
def closing (node : Node) : RunResult :=
  text { nodeStyle := node.style, scene := node.scene, endsNode := true }

def scene : RunResult → Option String
  | text r => r.scene
  | options r => r.scene
  | command _ => none

end RunResult

inductive RuntimeError where
  | unknownNode (title : String)
  | noMatchingNode (title : String)
  | optionRequired
  | invalidOption (index available : Nat)
  | dialogueFinished
  | eval (cause : EvalError)
  deriving DecidableEq, Repr

namespace RuntimeError

def message : RuntimeError → String
  | unknownNode title => "node '" ++ title ++ "' does not exist"
  | noMatchingNode title => "no member of node group '" ++ title ++ "' matches its conditions"
  | optionRequired => "an option index is required to continue"
  | invalidOption index available =>
      "option " ++ toString index ++ " is out of range (" ++ toString available ++ " available)"
  | dialogueFinished => "the dialogue has already finished"
  | eval cause => cause.message

end RuntimeError

/-- A command that was met while running, and what became of it. -/
structure CommandEvent where
  raw : String
  /-- Nothing if the text is no command. -/
  parsed : Option Command
  outcome : Outcome

end Dialogue
