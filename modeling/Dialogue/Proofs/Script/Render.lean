import Dialogue.Proofs.Script.Grammar
import Dialogue.Proofs.Text.Trim
import Mathlib.Data.List.Infix

set_option autoImplicit false

namespace Dialogue.Script

open Dialogue.Text

/-- A text without line ends. -/
def IsSingle (text : String) : Prop :=
  '\n' ∉ text.toList ∧ '\r' ∉ text.toList

instance (text : String) : Decidable (IsSingle text) :=
  inferInstanceAs (Decidable (_ ∧ _))

/-- A trimmed text on a single line. -/
structure IsPhrase (text : String) : Prop where
  trimmed : Trimmed text.toList
  single : IsSingle text

instance (text : String) : Decidable (IsPhrase text) :=
  decidable_of_iff (Trimmed text.toList ∧ IsSingle text)
    ⟨fun ⟨trimmed, single⟩ => ⟨trimmed, single⟩, fun phrase => ⟨phrase.trimmed, phrase.single⟩⟩

def spellsTag : List Char → Bool
  | [] => false
  | c :: cs => isNameStart c && cs.all isTagChar

/-- A name in which colons may stand behind the first character. -/
def IsTag (tag : String) : Prop :=
  spellsTag tag.toList = true

instance (tag : String) : Decidable (IsTag tag) :=
  inferInstanceAs (Decidable (_ = true))

/-- Whether white space and a mark introduce a tag at the start of a text. -/
def startsTag : List Char → Bool
  | [] => false
  | c :: cs => isBlank c && opensTag cs

/-- Whether a text starts with the opener of a guard, which white space or the end follows. -/
def startsGuard (text : List Char) : Bool :=
  match after? ['<', '<', 'i', 'f'] text with
  | some (c :: _) => isBlank c
  | some [] => true
  | none => false

/-- A text without styles and tags inside. -/
structure IsBare (text : List Char) : Prop where
  unstyled : ∀ rest ∈ text.tails, after? cssOpen rest = none
  untagged : ∀ rest ∈ text.tails, startsTag rest = false

instance (text : List Char) : Decidable (IsBare text) :=
  decidable_of_iff ((∀ rest ∈ text.tails, after? cssOpen rest = none) ∧
      ∀ rest ∈ text.tails, startsTag rest = false)
    ⟨fun ⟨unstyled, untagged⟩ => ⟨unstyled, untagged⟩, fun bare => ⟨bare.unstyled, bare.untagged⟩⟩

/-- Text that is not the bound of a body, an option, a command or a marker. -/
structure IsProse (text : List Char) : Prop where
  bounds : trimEnd text ≠ ['-', '-', '-'] ∧ trimEnd text ≠ ['=', '=', '=']
  option : after? ['-', '>'] text = none
  command : command? text = none
  marker : marker? (String.ofList text) = none

instance (text : List Char) : Decidable (IsProse text) :=
  decidable_of_iff ((trimEnd text ≠ ['-', '-', '-'] ∧ trimEnd text ≠ ['=', '=', '=']) ∧
      after? ['-', '>'] text = none ∧ command? text = none ∧ marker? (String.ofList text) = none)
    ⟨fun ⟨bounds, option, command, marker⟩ => ⟨bounds, option, command, marker⟩,
      fun prose => ⟨prose.bounds, prose.option, prose.command, prose.marker⟩⟩

/-- The tags behind a text. -/
def tagText : List String → String
  | [] => ""
  | tag :: tags => " #" ++ tag ++ tagText tags

namespace Line

/-- A line without its tags. -/
def head (l : Line) : String :=
  match l.speaker with
  | some speaker => speaker ++ ": " ++ l.text
  | none => l.text

def written (l : Line) : String :=
  l.head ++ tagText l.tags

structure WellFormed (l : Line) : Prop where
  unstyled : l.css = none
  tags : ∀ tag ∈ l.tags, IsTag tag
  text : IsPhrase l.text
  speaker : ∀ speaker ∈ l.speaker, IsPhrase speaker ∧ speaker ≠ "" ∧ ':' ∉ speaker.toList
  spoken : l.speaker = none → l.text ≠ "" ∧ ':' ∉ l.text.toList
  bare : IsBare l.head.toList
  prose : IsProse l.head.toList

end Line

namespace Choice

/-- An option without its condition. -/
def label (c : Choice) : String :=
  c.text ++ tagText c.tags

def written (c : Choice) : String :=
  match c.condition with
  | none => c.label
  | some condition =>
      (if c.label.isEmpty then "" else c.label ++ " ") ++ "<<if " ++ condition ++ ">>"

structure WellFormed (c : Choice) : Prop where
  unstyled : c.css = none
  tags : ∀ tag ∈ c.tags, IsTag tag
  text : IsPhrase c.text
  /-- White space introduces a tag, so tags stand behind a text. -/
  named : c.text = "" → c.tags = []
  condition : ∀ condition ∈ c.condition, IsPhrase condition ∧ condition ≠ ""
  bare : IsBare c.text.toList
  unguarded : ∀ rest ∈ c.text.toList.tails, startsGuard rest = false

end Choice

/-- An argument of a keyword. -/
def IsArgument (text : String) : Prop :=
  IsPhrase text ∧ text ≠ ""

instance (text : String) : Decidable (IsArgument text) :=
  inferInstanceAs (Decidable (_ ∧ _))

def Statement.isOptions : Statement → Bool
  | .options _ => true
  | _ => false

mutual

/-- The texts of a statement and of its blocks spell no markup, and the statement can be told from
its neighbours. -/
def Statement.WellFormed : Statement → Prop
  | .line line => line.WellFormed
  | .command content => IsArgument content ∧ IsPlain content.toList
  | .jump target => IsArgument target
  | .detour target => IsArgument target
  | .options choices => choices ≠ [] ∧ WellFormedChoices choices
  | .conditional branches =>
      (∃ condition body rest, branches = (some condition, body) :: rest) ∧
        WellFormedBranches branches
  | .once body => WellFormedBody body
  | .enumeration enum => IsArgument enum.name ∧ ∀ case ∈ enum.cases, IsArgument case

/-- Two groups of options do not follow one another. -/
def WellFormedBody : List Statement → Prop
  | [] => True
  | statement :: rest =>
      statement.WellFormed ∧
        (statement.isOptions = true → ∀ next ∈ rest.head?, next.isOptions = false) ∧
        WellFormedBody rest

def WellFormedChoices : List (Choice × List Statement) → Prop
  | [] => True
  | (choice, body) :: rest => choice.WellFormed ∧ WellFormedBody body ∧ WellFormedChoices rest

/-- A branch without a condition is the last one. -/
def WellFormedBranches : List (Option String × List Statement) → Prop
  | [] => True
  | (condition, body) :: rest =>
      (∀ text ∈ condition, IsArgument text) ∧ WellFormedBody body ∧
        (condition = none → rest = []) ∧ WellFormedBranches rest

end

/-- A line of a body: its level of indentation, the kind of its token and the token's text. -/
structure Row where
  depth : Nat
  kind : TokenKind
  text : String

namespace Row

/-- A line without its indentation. -/
def content (r : Row) : String :=
  match r.kind with
  | .option => "-> " ++ r.text
  | .command => "<<" ++ r.text ++ ">>"
  | _ => r.text

/-- A level of indentation is four spaces. -/
def line (r : Row) : String :=
  String.ofList (List.replicate (4 * r.depth) ' ') ++ r.content

end Row

/-- The command that a branch starts with. -/
def branchText (keyword : String) : Option String → String
  | some condition => keyword ++ " " ++ condition
  | none => "else"

mutual

/-- The lines of a statement in a block of the given depth. -/
def Statement.rows (depth : Nat) : Statement → List Row
  | .line line => [⟨depth, .text, line.written⟩]
  | .command content => [⟨depth, .command, content⟩]
  | .jump target => [⟨depth, .command, "jump " ++ target⟩]
  | .detour target => [⟨depth, .command, "detour " ++ target⟩]
  | .options choices => choicesRows depth choices
  | .conditional branches =>
      branchesRows depth "if" branches ++ [⟨depth, .command, "endif"⟩]
  | .once body =>
      ⟨depth, .command, "once"⟩ :: bodyRows depth body ++ [⟨depth, .command, "endonce"⟩]
  | .enumeration enum =>
      ⟨depth, .command, "enum " ++ enum.name⟩ ::
        enum.cases.map (fun case => ⟨depth, .command, "case " ++ case⟩) ++
          [⟨depth, .command, "endenum"⟩]

def bodyRows (depth : Nat) : List Statement → List Row
  | [] => []
  | statement :: rest => statement.rows depth ++ bodyRows depth rest

def choicesRows (depth : Nat) : List (Choice × List Statement) → List Row
  | [] => []
  | (choice, body) :: rest =>
      ⟨depth, .option, choice.written⟩ :: bodyRows (depth + 1) body ++ choicesRows depth rest

/-- The first branch starts with the given keyword. -/
def branchesRows (depth : Nat) (keyword : String) :
    List (Option String × List Statement) → List Row
  | [] => []
  | (condition, body) :: rest =>
      ⟨depth, .command, branchText keyword condition⟩ :: bodyRows depth body ++
        branchesRows depth "elseif" rest

end

/-- The canonical script of a single node. -/
def render (title : String) (body : Body) : String :=
  join "\n" (("title: " ++ title) :: "---" :: (bodyRows 0 body).map Row.line ++ ["==="])

end Dialogue.Script
