import Dialogue.Text.Blank
import Dialogue.Text.Name
import Dialogue.Text.Utf8

set_option autoImplicit false

namespace Dialogue.Script

open Dialogue.Text

inductive TokenKind where
  | headerKey
  | headerValue
  | nodeStart
  | nodeEnd
  | option
  | command
  | text
  | empty
  | indent
  | dedent
  | eof
  deriving DecidableEq, Repr

/-- Lines and columns count from one, columns in bytes. -/
structure Position where
  line : Nat
  column : Nat
  deriving DecidableEq, Repr

structure Token where
  kind : TokenKind
  text : String
  position : Position
  deriving DecidableEq, Repr

namespace TokenKind

/-- How messages name a kind of token. -/
def name : TokenKind → String
  | headerKey => "HeaderKey"
  | headerValue => "HeaderValue"
  | nodeStart => "NodeStart"
  | nodeEnd => "NodeEnd"
  | option => "Option"
  | command => "Command"
  | text => "Text"
  | empty => "Empty"
  | indent => "Indent"
  | dedent => "Dedent"
  | eof => "Eof"

end TokenKind

namespace Token

/-- A token of layout, which has no text and stands at the start of its line. -/
def layout (kind : TokenKind) (line : Nat) : Token :=
  ⟨kind, "", ⟨line, 1⟩⟩

def describe (t : Token) : String :=
  match t.kind with
  | .eof => "end of input"
  | .indent => "indentation"
  | .dedent => "dedent"
  | .empty => "blank line"
  | kind => kind.name ++ " '" ++ t.text ++ "'"

end Token

/-- Carriage returns, alone or before a line feed, end a line like a line feed. -/
def unifyNewlines : List Char → List Char
  | [] => []
  | '\r' :: '\n' :: cs => '\n' :: unifyNewlines cs
  | c :: cs => (if c = '\r' then '\n' else c) :: unifyNewlines cs

def sourceLines (source : String) : List (List Char) :=
  splitAll '\n' (unifyNewlines source.toList)

def isMargin (c : Char) : Bool :=
  c = ' ' || c = '\t'

/-- `key: value`, with the bytes that stand before the value. -/
def header? (content : List Char) : Option (List Char × List Char × Nat) :=
  match content with
  | [] => none
  | c :: _ =>
      if isNameStart c then
        let key := content.takeWhile isNameChar
        match trimStart (content.dropWhile isNameChar) with
        | ':' :: rest =>
            let value := trimStart rest
            some (key, value, byteLength content - byteLength value)
        | _ => none
      else none

/-- The inside of a line that is one `<<…>>`, which is not empty. -/
def command? (content : List Char) : Option (List Char) := do
  let inner ← after? ['<', '<'] (trimEnd content)
  let reversed ← after? ['>', '>'] inner.reverse
  if reversed.isEmpty then none else some (trim reversed.reverse)

/-- What the lines read so far leave open. -/
structure Layout where
  inHeaders : Bool
  /-- The widths of the open levels of indentation, innermost first. -/
  levels : List Nat

namespace Layout

def initial : Layout :=
  ⟨true, []⟩

def dedents (count line : Nat) : List Token :=
  List.replicate count (.layout .dedent line)

/-- The levels after a line of the given width, and the tokens that lead to them. -/
def indentTo (levels : List Nat) (width line : Nat) : List Token × List Nat :=
  if levels.headD 0 < width then ([.layout .indent line], width :: levels)
  else
    let kept := levels.dropWhile (width < ·)
    (dedents (levels.length - kept.length) line, kept)

end Layout

/-- The tokens of a line that does not bound a node's body. -/
def contentTokens (inHeaders : Bool) (content : List Char) (line column : Nat) : List Token :=
  match if inHeaders then header? content else none with
  | some (key, value, offset) =>
      [⟨.headerKey, String.ofList key, ⟨line, column⟩⟩,
       ⟨.headerValue, String.ofList value, ⟨line, column + offset⟩⟩]
  | none =>
      match after? ['-', '>'] content with
      | some rest => [⟨.option, String.ofList (trim rest), ⟨line, column⟩⟩]
      | none =>
          match command? content with
          | some inner => [⟨.command, String.ofList inner, ⟨line, column⟩⟩]
          | none => [⟨.text, String.ofList content, ⟨line, column⟩⟩]

/-- The tokens of one line and what it leaves open. -/
def lexLine (layout : Layout) (line : Nat) (raw : List Char) : List Token × Layout :=
  let content := raw.dropWhile isMargin
  let width := raw.length - content.length
  if content.all isBlank then ([.layout .empty line], layout)
  else
    let (shifts, levels) :=
      if layout.inHeaders then ([], layout.levels) else Layout.indentTo layout.levels width line
    let mark := trimEnd content
    if mark = ['-', '-', '-'] then
      (shifts ++ [⟨.nodeStart, "---", ⟨line, width + 1⟩⟩], ⟨false, levels⟩)
    else if mark = ['=', '=', '='] then
      (shifts ++ Layout.dedents levels.length line ++ [⟨.nodeEnd, "===", ⟨line, width + 1⟩⟩],
        ⟨true, []⟩)
    else
      (shifts ++ contentTokens layout.inHeaders content line (width + 1),
        ⟨layout.inHeaders, levels⟩)

/-- The tokens of the lines from number `line` on. Levels still open close on the last line. -/
def lexLines (layout : Layout) (line : Nat) : List (List Char) → List Token
  | [] => Layout.dedents layout.levels.length (line - 1) ++ [.layout .eof line]
  | raw :: rest =>
      let (tokens, next) := lexLine layout line raw
      tokens ++ lexLines next (line + 1) rest

/-- The tokens of a script, the last of which is the end of input. -/
def lex (source : String) : List Token :=
  lexLines .initial 1 (sourceLines source)

end Dialogue.Script
