import Dialogue.Script.Document
import Mathlib.Data.List.Forall2

set_option autoImplicit false

namespace Dialogue.Script

open Dialogue.Text

/-- Whether a token stands for something that is said or done, or structures it. -/
def Token.isContent (t : Token) : Bool :=
  t.kind = .text || t.kind = .option || t.kind = .command

/-- The content of a single token. -/
def Token.content (t : Token) : List Token :=
  if t.isContent then [t] else []

/-- The words that structure a body when they are the whole of a command. -/
def bareKeywords : List String :=
  ["jump", "detour", "if", "once", "else", "endif", "endonce", "endenum"]

/-- The words that structure a body when an argument follows them. -/
def argumentKeywords : List String :=
  ["jump", "detour", "if", "enum", "elseif", "case"]

/-- The text of a command that structures nothing. -/
structure IsPlain (text : List Char) : Prop where
  bare : ∀ word ∈ bareKeywords, text ≠ word.toList
  argument : ∀ word ∈ argumentKeywords, argument? word text = none
  branch : elseIf? text = none

instance (text : List Char) : Decidable (IsPlain text) :=
  decidable_of_iff
    ((∀ word ∈ bareKeywords, text ≠ word.toList) ∧
      (∀ word ∈ argumentKeywords, argument? word text = none) ∧ elseIf? text = none)
    ⟨fun ⟨bare, argument, branch⟩ => ⟨bare, argument, branch⟩,
      fun plain => ⟨plain.bare, plain.argument, plain.branch⟩⟩

/-- A command whose text is the given word. -/
def IsCommand (word : String) (t : Token) : Prop :=
  t.kind = .command ∧ t.text = word

/-- A command that consists of a keyword and an argument. -/
def HasArgument (keyword argument : String) (t : Token) : Prop :=
  t.kind = .command ∧ argument? keyword t.text.toList = some argument.toList

/-- A token that opens a conditional, with the condition of the first branch. -/
inductive Opens : Spelling → String → Token → Prop
  | command {condition : String} {t : Token} (reads : HasArgument "if" condition t) :
      Opens .command condition t
  | marker {condition : String} {t : Token} (kind : t.kind = .text)
      (reads : marker? t.text = some (.opens condition)) : Opens .marker condition t

/-- A token between two branches, with the condition of the later one. -/
inductive Continues : Spelling → Option String → Token → Prop
  | elseCommand {t : Token} (reads : IsCommand "else" t) : Continues .command none t
  | elseIfCommand {condition : String} {t : Token} (kind : t.kind = .command)
      (reads : elseIf? t.text.toList = some condition.toList) :
      Continues .command (some condition) t
  | elseMarker {t : Token} (kind : t.kind = .text) (reads : marker? t.text = some .otherwise) :
      Continues .marker none t
  | elseIfMarker {condition : String} {t : Token} (kind : t.kind = .text)
      (reads : marker? t.text = some (.elseIf condition)) : Continues .marker (some condition) t

/-- A token that ends a conditional. -/
inductive Closes : Spelling → Token → Prop
  | command {t : Token} (reads : IsCommand "endif" t) : Closes .command t
  | marker {t : Token} (kind : t.kind = .text) (reads : marker? t.text = some .closes) :
      Closes .marker t

mutual

/-- The content tokens of a body, in order. -/
inductive Spells : List Token → Body → Prop
  | nil : Spells [] []
  | snoc {earlier last : List Token} {body : Body} {statement : Statement}
      (before : Spells earlier body) (one : SpellsOne last statement) :
      Spells (earlier ++ last) (body ++ [statement])

/-- The content tokens of a statement: its own and those of its blocks, in order. -/
inductive SpellsOne : List Token → Statement → Prop
  | line {t : Token} (kind : t.kind = .text) (unmarked : marker? t.text = none) :
      SpellsOne [t] (.line (lineOf t.text))
  | command {t : Token} (kind : t.kind = .command) (plain : IsPlain t.text.toList) :
      SpellsOne [t] (.command t.text)
  | jump {t : Token} {target : String} (reads : HasArgument "jump" target t) :
      SpellsOne [t] (.jump target)
  | detour {t : Token} {target : String} (reads : HasArgument "detour" target t) :
      SpellsOne [t] (.detour target)
  | options {tokens : List Token} {choices : List (Choice × Body)} (nonempty : choices ≠ [])
      (each : SpellsChoices tokens choices) : SpellsOne tokens (.options choices)
  | conditional {tokens : List Token} {branches : List (Option String × Body)}
      {spelling : Spelling} {closer : Token} (each : SpellsBranches spelling tokens branches)
      (closes : Closes spelling closer) : SpellsOne (tokens ++ [closer]) (.conditional branches)
  /-- The closer may be missing. -/
  | once {opener : Token} {tokens closer : List Token} {body : Body}
      (opens : IsCommand "once" opener) (inside : Spells tokens body)
      (closes : closer = [] ∨ ∃ t, closer = [t] ∧ IsCommand "endonce" t) :
      SpellsOne (opener :: tokens ++ closer) (.once body)
  | enumeration {opener closer : Token} {tokens : List Token} {enum : Enumeration}
      (opens : HasArgument "enum" enum.name opener) (named : enum.name ≠ "")
      (each : List.Forall₂ (HasArgument "case") enum.cases tokens)
      (closes : IsCommand "endenum" closer) :
      SpellsOne (opener :: tokens ++ [closer]) (.enumeration enum)

/-- One token for each option, followed by the tokens of what it leads to. -/
inductive SpellsChoices : List Token → List (Choice × Body) → Prop
  | nil : SpellsChoices [] []
  | snoc {earlier tokens : List Token} {t : Token} {choices : List (Choice × Body)} {body : Body}
      (before : SpellsChoices earlier choices) (kind : t.kind = .option)
      (inside : Spells tokens body) :
      SpellsChoices (earlier ++ t :: tokens) (choices ++ [(choiceOf t.text, body)])

/-- The branches of a conditional: the opener before the first, and one token before each of the
others. -/
inductive SpellsBranches : Spelling → List Token → List (Option String × Body) → Prop
  | first {spelling : Spelling} {t : Token} {tokens : List Token} {condition : String} {body : Body}
      (opens : Opens spelling condition t) (inside : Spells tokens body) :
      SpellsBranches spelling (t :: tokens) [(some condition, body)]
  | next {spelling : Spelling} {earlier tokens : List Token} {t : Token}
      {branches : List (Option String × Body)} {condition : Option String} {body : Body}
      (before : SpellsBranches spelling earlier branches)
      (continues : Continues spelling condition t) (inside : Spells tokens body) :
      SpellsBranches spelling (earlier ++ t :: tokens) (branches ++ [(condition, body)])

end

theorem Spells.append {earlier later : List Token} {body rest : Body}
    (first : Spells earlier body) (second : Spells later rest) :
    Spells (earlier ++ later) (body ++ rest) := by
  match second with
  | .nil => simpa only [List.append_nil] using first
  | .snoc before one =>
      rw [← List.append_assoc, ← List.append_assoc]
      exact (first.append before).snoc one

mutual

/-- The enumerations that a statement defines, in order. -/
def Statement.definitions : Statement → List Enumeration
  | .options choices => choicesDefinitions choices
  | .conditional branches => branchesDefinitions branches
  | .once body => bodyDefinitions body
  | .enumeration enum => [enum]
  | .line _ | .command _ | .jump _ | .detour _ => []

def bodyDefinitions : List Statement → List Enumeration
  | [] => []
  | statement :: rest => statement.definitions ++ bodyDefinitions rest

def choicesDefinitions : List (Choice × List Statement) → List Enumeration
  | [] => []
  | (_, body) :: rest => bodyDefinitions body ++ choicesDefinitions rest

def branchesDefinitions : List (Option String × List Statement) → List Enumeration
  | [] => []
  | (_, body) :: rest => bodyDefinitions body ++ branchesDefinitions rest

end

attribute [simp] Statement.definitions bodyDefinitions choicesDefinitions branchesDefinitions

@[simp] theorem bodyDefinitions_append (body rest : Body) :
    bodyDefinitions (body ++ rest) = bodyDefinitions body ++ bodyDefinitions rest := by
  induction body with
  | nil => rfl
  | cons statement body ih =>
      rw [List.cons_append, bodyDefinitions, bodyDefinitions, ih, List.append_assoc]

@[simp] theorem choicesDefinitions_append (choices rest : List (Choice × Body)) :
    choicesDefinitions (choices ++ rest) =
      choicesDefinitions choices ++ choicesDefinitions rest := by
  induction choices with
  | nil => rfl
  | cons choice choices ih =>
      rw [List.cons_append, choicesDefinitions, choicesDefinitions, ih, List.append_assoc]

@[simp] theorem branchesDefinitions_append (branches rest : List (Option String × Body)) :
    branchesDefinitions (branches ++ rest) =
      branchesDefinitions branches ++ branchesDefinitions rest := by
  induction branches with
  | nil => rfl
  | cons branch branches ih =>
      rw [List.cons_append, branchesDefinitions, branchesDefinitions, ih, List.append_assoc]

end Dialogue.Script
