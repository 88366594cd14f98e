import Dialogue.Program.Basic
import Dialogue.Text.Blank

set_option autoImplicit false

namespace Dialogue.Program

/-- How one node hands over to another. -/
inductive Transfer where
  | jump
  | detour
  deriving DecidableEq, Repr

inductive IdKind where
  | enumCase
  | line
  | once
  deriving DecidableEq, Repr

inductive Finding where
  | emptyEnum (name : String)
  | emptyTitle
  | duplicateId (kind : IdKind) (id : String)
  | missingNode (target : String) (transfer : Transfer) (title : String)
  deriving DecidableEq, Repr

namespace Transfer

def name : Transfer → String
  | jump => "jump"
  | detour => "detour"

end Transfer

namespace IdKind

def name : IdKind → String
  | enumCase => "enum case"
  | line => "line"
  | once => "once"

end IdKind

namespace Finding

def message : Finding → String
  | emptyEnum name => "invalid value (enum '" ++ name ++ "' has no cases)"
  | emptyTitle => "invalid value (node with empty title)"
  | duplicateId kind id => "duplicate " ++ kind.name ++ " id '" ++ id ++ "'"
  | missingNode target transfer title =>
      "missing node '" ++ target ++ "' (" ++ transfer.name ++ " in node '" ++ title ++ "')"

end Finding

/-- The cases of an enumeration that an earlier case repeats, where `seen` came before. -/
def repeatedCases (name : String) (seen : List String) : List String → List Finding
  | [] => []
  | case :: rest =>
      if seen.contains case then
        .duplicateId .enumCase (name ++ "." ++ case) :: repeatedCases name seen rest
      else repeatedCases name (case :: seen) rest

def checkEnum (name : String) (cases : List String) : List Finding :=
  (if cases.isEmpty then [.emptyEnum name] else []) ++ repeatedCases name [] cases

/-- Something in a program that the check looks at. -/
inductive Mention where
  | title (title : String)
  | reference (target : String) (transfer : Transfer) (title : String)
  | id (kind : IdKind) (id : String)
  deriving DecidableEq, Repr

def lineMention (tags : List String) : List Mention :=
  (lineId? tags).toList.map (.id .line)

mutual

/-- What an instruction mentions: itself first, then its blocks. -/
def mentions (title : String) : Instruction → List Mention
  | .line l => lineMention l.tags
  | .command _ => []
  | .jump target => [.reference target .jump title]
  | .detour target => [.reference target .detour title]
  | .options choices =>
      choices.flatMap (fun c => lineMention c.1.tags) ++ choiceMentions title choices
  | .branches bs => branchMentions title bs
  | .once id block => .id .once id :: blockMentions title block

def blockMentions (title : String) : List Instruction → List Mention
  | [] => []
  | i :: rest => mentions title i ++ blockMentions title rest

def choiceMentions (title : String) : List (Choice × List Instruction) → List Mention
  | [] => []
  | (_, block) :: rest => blockMentions title block ++ choiceMentions title rest

def branchMentions (title : String) : List (Option String × List Instruction) → List Mention
  | [] => []
  | (_, block) :: rest => blockMentions title block ++ branchMentions title rest

end

/-- All mentions of a program's nodes, in order. -/
def nodeMentions (p : Program) : List Mention :=
  p.nodes.entries.flatMap fun (title, group) =>
    .title title :: group.flatMap fun node => blockMentions title node.instructions

/-- The findings among mentions, where the identifiers in `seen` came before. -/
def checkMentions (p : Program) (seen : List (IdKind × String)) : List Mention → List Finding
  | [] => []
  | .title title :: rest =>
      (if Text.isBlankText title then [.emptyTitle] else []) ++ checkMentions p seen rest
  | .reference target transfer title :: rest =>
      (if p.nodes.contains target then [] else [.missingNode target transfer title]) ++
        checkMentions p seen rest
  | .id kind id :: rest =>
      if seen.contains (kind, id) then .duplicateId kind id :: checkMentions p seen rest
      else checkMentions p ((kind, id) :: seen) rest

/-- Everything that is wrong with a program, in the order of its text. -/
def validate (p : Program) : List Finding :=
  p.enums.entries.flatMap (fun (name, cases) => checkEnum name cases) ++
    checkMentions p [] p.nodeMentions

end Dialogue.Program
