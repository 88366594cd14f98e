import Dialogue.Text.Bracket
import Dialogue.Toml.Scalar

set_option autoImplicit false

namespace Dialogue.Toml

open Dialogue.Text

/-- Brackets and names nest less deep than this. -/
def nestingLimit : Nat :=
  80

/-- Line feeds in place of line breaks of two characters. -/
def unifyBreaks : List Char → List Char
  | [] => []
  | [c] => [c]
  | c :: d :: cs =>
      if c = '\r' && d = '\n' then unifyBreaks (d :: cs) else c :: unifyBreaks (d :: cs)

/-- The text behind blanks, line breaks and comments. -/
def skipGaps : List Char → List Char
  | [] => []
  | c :: cs =>
      if isSpace c || c = '\n' then skipGaps cs
      else if c = '#' then skipGaps (cs.dropWhile isPlain)
      else c :: cs
termination_by cs => cs.length
decreasing_by
  · simp
  · exact Nat.lt_succ_of_le (dropWhile_length_le isPlain cs)

def skipSpace (cs : List Char) : List Char :=
  cs.dropWhile isSpace

/-- A key, an equals sign and a value. -/
def pair? (value : List Char → Option (Toml × List Char)) (cs : List Char) :
    Option ((Key × Toml) × List Char) := do
  let (key, rest) ← key? (nestingLimit - 1) cs
  let rest ← after? ['='] rest
  let (v, rest) ← value (skipSpace rest)
  some ((key, v), rest)

/-- A value at the front of a text, where brackets may nest less deep than the number says. -/
def value? : Nat → List Char → Option (Toml × List Char)
  | 0, _ => none
  | _, [] => none
  | levels + 1, c :: cs =>
      if c = '"' then (textIn? '"' true (c :: cs)).map fun (s, rest) => (.text s, rest)
      else if c = '\'' then (textIn? '\'' false (c :: cs)).map fun (s, rest) => (.text s, rest)
      else if c = '[' then
        if levels = 0 then none
        else (entries? skipGaps true (value? levels) ']' (cs.length + 1) cs).map
          fun (items, rest) => (.array items, rest)
      else if c = '\x7b' then
        if levels = 0 then none
        else do
          let (pairs, rest) ← entries? skipSpace false (pair? (value? levels)) '\x7d'
            (cs.length + 1) cs
          let entries ← ofPairs? pairs
          some (.table .inline entries, rest)
      else bare? (c :: cs)

/-- A key in single or double brackets, the opening ones of which have been read. -/
def heading? (closing : List Char) (cs : List Char) : Option (Key × List Char) := do
  let (key, rest) ← key? (nestingLimit - 1) cs
  let rest ← after? closing rest
  some (key, rest)

def statement? : List Char → Option (Statement × List Char)
  | '[' :: '[' :: cs => (heading? [']', ']'] cs).map fun (key, rest) => (.member key, rest)
  | '[' :: cs => (heading? [']'] cs).map fun (key, rest) => (.header key, rest)
  | cs => (pair? (value? nestingLimit) cs).map fun (pair, rest) => (.pair pair.1 pair.2, rest)

/-- The lines behind the rest of a line, on which only a comment may stand. -/
def nextLine? (cs : List Char) : Option (List Char) :=
  let rest := match skipSpace cs with
    | '#' :: rest => rest.dropWhile isPlain
    | rest => rest
  match rest with
  | [] => some []
  | c :: rest => if c = '\n' then some rest else none

/-- The statements of a text. The number bounds how many there are. -/
def statements? : Nat → List Char → Option (List Statement)
  | 0, _ => none
  | fuel + 1, cs =>
      match skipGaps cs with
      | [] => some []
      | c :: rest => do
          let (first, rest) ← statement? (c :: rest)
          let rest ← nextLine? rest
          let others ← statements? fuel rest
          some (first :: others)

/-- The table that a whole text spells. -/
def read? (source : String) : Option Entries :=
  let text := unifyBreaks ((after? ['\ufeff'] source.toList).getD source.toList)
  (statements? (text.length + 1) text).bind ofStatements?

end Dialogue.Toml
