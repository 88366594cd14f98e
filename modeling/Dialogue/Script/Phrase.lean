import Dialogue.Script.Statement
import Dialogue.Script.Token

set_option autoImplicit false

namespace Dialogue.Script

open Dialogue.Text

/-- The argument of a keyword that white space separates from it. -/
def argument? (keyword : String) (text : List Char) : Option (List Char) :=
  match after? keyword.toList text with
  | some (c :: rest) => if isBlank c then some (trim (c :: rest)) else none
  | _ => none

/-- The condition of `elseif …` or `else if …`. -/
def elseIf? (text : List Char) : Option (List Char) :=
  (argument? "elseif" text).orElse fun _ => (argument? "else" text).bind (argument? "if")

/-- The text before and after the first occurrence of a literal. -/
def splitAtLiteral (literal : List Char) : List Char → Option (List Char × List Char)
  | [] => (after? literal []).map fun rest => ([], rest)
  | c :: cs =>
      match after? literal (c :: cs) with
      | some rest => some ([], rest)
      | none => (splitAtLiteral literal cs).map fun (before, rest) => (c :: before, rest)

def cssOpen : List Char :=
  ['&', 'c', 's', 's', '\x7b']

/-- Takes the first `&css` block out of a text. -/
def extractCss (text : List Char) : List Char × Option (List Char) :=
  match splitAtLiteral cssOpen text with
  | none => (text, none)
  | some (before, rest) =>
      match splitOnce '\x7d' rest with
      | none => (text, none)
      | some (css, after) =>
          let kept := trimEnd before
          let joined := if kept.isEmpty then trimStart after else kept ++ after
          (trimEnd joined, some (trim css))

def isTagChar (c : Char) : Bool :=
  isNameChar c || c = ':'

/-- Where a scan for tags stands. -/
inductive TagScan where
  | outside
  /-- White space before a tag was passed and the mark is next. -/
  | mark
  | inside (letters : List Char)

def opensTag : List Char → Bool
  | '#' :: c :: _ => isNameStart c
  | _ => false

/-- The text outside tags, and the tags, each of which white space and a mark introduce. -/
def scanTags : TagScan → List Char → List Char × List (List Char)
  | .inside letters, [] => ([], [letters])
  | _, [] => ([], [])
  | .mark, _ :: cs => scanTags (.inside []) cs
  | scan, c :: cs =>
      let step (ended : List (List Char)) : List Char × List (List Char) :=
        if isBlank c && opensTag cs then
          let (text, tags) := scanTags .mark cs
          (text, ended ++ tags)
        else
          let (text, tags) := scanTags .outside cs
          (c :: text, ended ++ tags)
      match scan with
      | .inside letters =>
          if isTagChar c then scanTags (.inside (letters ++ [c])) cs else step [letters]
      | _ => step []

/-- Takes the tags out of a text, which is trimmed at its end if there are any. -/
def extractTags (text : List Char) : List Char × List String :=
  let (outside, tags) := scanTags .outside text
  if tags.isEmpty then (text, []) else (trimEnd outside, tags.map String.ofList)

/-- `speaker: text`; a speaker starts with a character other than white space. -/
def speaker? (text : List Char) : Option (List Char × List Char) :=
  match splitOnce ':' text with
  | some (c :: before, after) =>
      if isBlank c then none else some (trim (c :: before), trimStart after)
  | _ => none

/-- The line of dialogue that a text line spells. -/
def lineOf (text : String) : Line :=
  let (plain, css) := extractCss text.toList
  let (plain, tags) := extractTags plain
  match speaker? plain with
  | some (speaker, words) =>
      ⟨some (String.ofList speaker), String.ofList words, tags, css.map String.ofList⟩
  | none => ⟨none, String.ofList plain, tags, css.map String.ofList⟩

/-- The condition in what stands between a keyword and its closer: white space, then at least one
character. -/
def condition? : List Char → Option (List Char)
  | c :: d :: rest => if isBlank c then some (trim (d :: rest)) else none
  | _ => none

/-- The condition of a guard that stands at the start of a text and reaches to its end. -/
def guard? (text : List Char) : Option (List Char) := do
  let inner ← after? ['<', '<', 'i', 'f'] text
  let reversed ← after? ['>', '>'] (trimEnd inner).reverse
  condition? reversed.reverse

/-- The first guard in a text and the text before it. -/
def splitGuard : List Char → Option (List Char × List Char)
  | [] => none
  | c :: cs =>
      match guard? (c :: cs) with
      | some condition => some ([], condition)
      | none => (splitGuard cs).map fun (before, condition) => (c :: before, condition)

def choiceOf (text : String) : Choice :=
  let (label, condition) :=
    match splitGuard text.toList with
    | some (before, condition) => (trimEnd before, some condition)
    | none => (text.toList, none)
  let (label, css) := extractCss label
  let (label, tags) := extractTags label
  ⟨String.ofList (trim label), tags, css.map String.ofList, condition.map String.ofList⟩

/-- A text line that belongs to a conditional. -/
inductive Marker where
  | opens (condition : String)
  | elseIf (condition : String)
  | otherwise
  | closes

/-- The condition in `keyword condition` where a brace ends the text. -/
def bracedCondition? (keyword text : List Char) : Option String := do
  let inner ← after? keyword text
  let reversed ← after? ['\x7d'] inner.reverse
  let condition ← condition? reversed.reverse
  some (String.ofList condition)

/-- The marker that a text line spells, if any. -/
def marker? (text : String) : Option Marker :=
  let line := trim text.toList
  if line = "\x7belse\x7d".toList then some .otherwise
  else if line = "\x7bendif\x7d".toList then some .closes
  else
    let branch : Option String := do
      let rest ← after? "\x7belse".toList line
      let spaced ← if rest.head?.any isBlank then some (trimStart rest) else none
      bracedCondition? ['i', 'f'] spaced
    match branch with
    | some condition => some (.elseIf condition)
    | none => (bracedCondition? "\x7bif".toList line).map .opens

end Dialogue.Script
