import Dialogue.Text.Blank
import Dialogue.Text.Hidden

set_option autoImplicit false

namespace Dialogue

/-- A value of the format in which programs are stored. -/
inductive Ron where
  /-- Parentheses with nothing at all between them. -/
  | unit
  | bool (value : Bool)
  /-- A number as it is spelled. -/
  | number (literal : List Char)
  | text (value : List Char)
  | char (value : Char)
  | bytes (value : List UInt8)
  /-- An optional value that is not there. -/
  | absent
  /-- An optional value that is there. -/
  | present (value : Ron)
  | list (items : List Ron)
  | map (entries : List (Ron × Ron))
  | word (name : List Char)
  | tuple (name : List Char) (items : List Ron)
  | record (name : List Char) (fields : List (List Char × Ron))

namespace Ron

/-- How a character stands in a quoted text. -/
def escapeChar (c : Char) : List Char :=
  if c = '\x00' then ['\\', '0']
  else if c = '\t' then ['\\', 't']
  else if c = '\r' then ['\\', 'r']
  else if c = '\n' then ['\\', 'n']
  else if c = '"' || c = '\'' || c = '\\' then ['\\', c]
  else if Text.isHidden c then '\\' :: 'u' :: '\x7b' :: Nat.toDigits 16 c.toNat ++ ['\x7d']
  else [c]

def quote (cs : List Char) : List Char :=
  '"' :: cs.flatMap escapeChar ++ ['"']

/-- How a byte stands in a quoted sequence of bytes. -/
def escapeByte (b : UInt8) : List Char :=
  ['\\', 'x', Nat.digitChar (b.toNat / 16), Nat.digitChar (b.toNat % 16)]

/-- Where values are broken into lines. -/
inductive Layout where
  | compact
  /-- Inside so many levels. -/
  | lines (depth : Nat)

namespace Layout

def deeper : Layout → Layout
  | compact => compact
  | lines depth => lines (depth + 1)

/-- What stands before an entry. -/
def indent : Layout → List Char
  | compact => []
  | lines depth => List.replicate (4 * (depth + 1)) ' '

/-- What stands before a closing bracket. -/
def outdent : Layout → List Char
  | compact => []
  | lines depth => List.replicate (4 * depth) ' '

def newline : Layout → List Char
  | compact => []
  | lines _ => ['\n']

/-- What stands between a name and its value. -/
def colon : Layout → List Char
  | compact => [':']
  | lines _ => [':', ' ']

/-- What stands behind an entry. -/
def separator : Layout → (last : Bool) → List Char
  | compact, last => if last then [] else [',']
  | lines _, _ => [',', '\n']

/-- Entries between brackets, each already written at the inner level. -/
def enclose (layout : Layout) (opening closing : Char) (entries : List (List Char)) : List Char :=
  if entries.isEmpty then [opening, closing]
  else opening :: layout.newline ++ body entries ++ layout.outdent ++ [closing]
where
  body : List (List Char) → List Char
    | [] => []
    | [entry] => layout.indent ++ entry ++ layout.separator true
    | entry :: rest => layout.indent ++ entry ++ layout.separator false ++ body rest

end Layout

mutual

/-- The text of a value. -/
def write (layout : Layout) : Ron → List Char
  | .unit => ['(', ')']
  | .bool b => if b then "true".toList else "false".toList
  | .number literal => literal
  | .text cs => quote cs
  | .char c => '\'' :: escapeChar c ++ ['\'']
  | .bytes bs => 'b' :: '"' :: bs.flatMap escapeByte ++ ['"']
  | .absent => "None".toList
  | .present v => "Some(".toList ++ write layout v ++ [')']
  | .list items => layout.enclose '[' ']' (writeItems layout.deeper items)
  | .map entries => layout.enclose '\x7b' '\x7d' (writeEntries layout.deeper entries)
  | .word name => name
  | .tuple name items => name ++ '(' :: writeTuple layout items ++ [')']
  | .record name fields => name ++ layout.enclose '(' ')' (writeFields layout.deeper fields)

def writeItems (layout : Layout) : List Ron → List (List Char)
  | [] => []
  | item :: rest => write layout item :: writeItems layout rest

def writeEntries (layout : Layout) : List (Ron × Ron) → List (List Char)
  | [] => []
  | (key, value) :: rest =>
      (write layout key ++ layout.colon ++ write layout value) :: writeEntries layout rest

def writeFields (layout : Layout) : List (List Char × Ron) → List (List Char)
  | [] => []
  | (name, value) :: rest =>
      (name ++ layout.colon ++ write layout value) :: writeFields layout rest

/-- Items in parentheses stay on their line. -/
def writeTuple (layout : Layout) : List Ron → List Char
  | [] => []
  | [item] => write layout item
  | item :: rest => write layout item ++ ',' :: writeTuple layout rest

end

mutual

/-- How many levels a value takes, where each bracket takes `bracket` levels, each value in it one
more, and a value that is marked as there one. -/
def depth (bracket : Nat) : Ron → Nat
  | .present v => v.depth bracket + 1
  | .list items => bracket + depthItems bracket items
  | .map entries => bracket + depthEntries bracket entries
  | .tuple _ items => bracket + depthItems bracket items
  | .record _ fields => bracket + depthFields bracket fields
  | .unit | .bool _ | .number _ | .text _ | .char _ | .bytes _ | .absent | .word _ => 0

def depthItems (bracket : Nat) : List Ron → Nat
  | [] => 0
  | item :: rest => max (item.depth bracket + 1) (depthItems bracket rest)

def depthEntries (bracket : Nat) : List (Ron × Ron) → Nat
  | [] => 0
  | (key, value) :: rest =>
      max (max (key.depth bracket) (value.depth bracket) + 1) (depthEntries bracket rest)

def depthFields (bracket : Nat) : List (List Char × Ron) → Nat
  | [] => 0
  | (_, value) :: rest => max (value.depth bracket + 1) (depthFields bracket rest)

end

/-- How many levels may nest, both in what is written and in what is read. -/
def nestingLimit : Nat :=
  128

/-- How many levels writing a value takes. -/
def writeDepth (v : Ron) : Nat :=
  v.depth 0

/-- How many levels passing over a value takes. -/
def skipDepth (v : Ron) : Nat :=
  v.depth 1

end Ron

end Dialogue
