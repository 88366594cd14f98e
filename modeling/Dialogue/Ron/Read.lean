import Dialogue.Ron.Number
import Dialogue.Text.Bracket
import Dialogue.Text.Identifier
import Dialogue.Text.Utf8

set_option autoImplicit false

namespace Dialogue.Ron

open Dialogue.Text

def isGap (c : Char) : Bool :=
  let n := c.toNat
  (9 ≤ n && n ≤ 13) || n == 0x20 || n == 0x85 || n == 0x200E || n == 0x200F || n == 0x2028 ||
    n == 0x2029

/-- The text behind a block comment that is `depth + 1` comments deep. -/
def afterComment? : Nat → List Char → Option (List Char)
  | _, [] => none
  | _, [_] => none
  | depth, c :: d :: cs =>
      if c = '*' && d = '/' then
        match depth with
        | 0 => some cs
        | depth + 1 => afterComment? depth cs
      else if c = '/' && d = '*' then afterComment? (depth + 1) cs
      else afterComment? depth (d :: cs)

theorem afterComment?_length {depth : Nat} {cs rest : List Char}
    (found : afterComment? depth cs = some rest) : rest.length ≤ cs.length := by
  fun_induction afterComment? depth cs with
  | case1 => contradiction
  | case2 => contradiction
  | case3 =>
      simp only [Option.some.injEq] at found
      subst found
      simp only [List.length_cons]
      omega
  | case4 _ _ _ _ _ ih =>
      have := ih found
      simp only [List.length_cons]
      omega
  | case5 _ _ _ _ _ _ ih =>
      have := ih found
      simp only [List.length_cons]
      omega
  | case6 _ _ _ _ _ _ ih =>
      have := ih found
      simp only [List.length_cons] at this ⊢
      omega

/-- The text behind blanks and comments. A block comment that is never closed stays. -/
def skip : List Char → List Char
  | [] => []
  | [c] => if isGap c then [] else [c]
  | c :: d :: cs =>
      if isGap c then skip (d :: cs)
      else if c = '/' && d = '/' then skip (cs.dropWhile (· ≠ '\n'))
      else if c = '/' && d = '*' then
        match _closed : afterComment? 0 cs with
        | some rest => skip rest
        | none => c :: d :: cs
      else c :: d :: cs
termination_by cs => cs.length
decreasing_by
  · simp
  · have := dropWhile_length_le (fun c => decide (c ≠ '\n')) cs
    simp only [List.length_cons]
    omega
  · have := afterComment?_length _closed
    simp only [List.length_cons]
    omega

/-- Whether a character may stand in a name behind the mark that lets it be any name. -/
def isFreeChar (c : Char) : Bool :=
  isIdentifierChar c || c = '.' || c = '+' || c = '-'

/-- A name, plain or behind a mark that lets it be any name. -/
def name? (cs : List Char) : Option (List Char × List Char) :=
  match cs with
  | 'r' :: '#' :: rest =>
      if rest.head?.any isFreeChar then some (rest.takeWhile isFreeChar, rest.dropWhile isFreeChar)
      else none
  | c :: _ =>
      if isIdentifierStart c then
        some (cs.takeWhile isIdentifierChar, cs.dropWhile isIdentifierChar)
      else none
  | [] => none

/-- Whether a name stands behind the mark that lets it be any name. -/
def isFree : List Char → Bool
  | 'r' :: '#' :: _ => true
  | _ => false

/-- The character that a letter behind a backslash stands for. -/
def letterEscape? (c : Char) : Option Char :=
  if c = '\'' || c = '"' || c = '\\' then some c
  else if c = 'n' then some '\n'
  else if c = 'r' then some '\r'
  else if c = 't' then some '\t'
  else if c = '0' then some '\x00'
  else none

/-- The character with the code point that up to six digits in braces spell. -/
def codeEscape? : List Char → Option (Char × List Char)
  | '\x7b' :: cs => do
      let (digits, rest) ← splitOnce '\x7d' cs
      if digits.isEmpty || 6 < digits.length then none
      else do
        let n ← numeral? 16 digits
        let c ← charOfCode? n
        some (c, rest)
  | _ => none

/-- The byte that two digits spell. -/
def byte? : List Char → Option (Nat × List Char)
  | a :: b :: cs => (numeral? 16 [a, b]).map fun n => (n, cs)
  | _ => none

/-- The character that bytes encode, of which `before` have been read and at most so many more are
spelled out, each behind a mark of its own. -/
def byteEscapes? (before : List Nat) : Nat → List Char → Option (Char × List Char)
  | 0, _ => none
  | more + 1, cs => do
      let (b, rest) ← byte? cs
      match charOfBytes? (before ++ [b]) with
      | some c => some (c, rest)
      | none =>
          match rest with
          | '\\' :: 'x' :: rest => byteEscapes? (before ++ [b]) more rest
          | _ => none

/-- The character that a backslash sequence spells, and the text behind it. A character may be
spelled by at most `bytes` bytes. -/
def escape? (bytes : Nat) : List Char → Option (Char × List Char)
  | 'x' :: cs => byteEscapes? [] bytes cs
  | 'u' :: cs => codeEscape? cs
  | c :: cs => (letterEscape? c).map fun c => (c, cs)
  | [] => none

/-- The bytes that a backslash sequence spells, and the text behind it. -/
def bytesEscape? : List Char → Option (List UInt8 × List Char)
  | 'x' :: cs => (byte? cs).map fun (b, rest) => ([b.toUInt8], rest)
  | cs => (escape? 0 cs).map fun (c, rest) => (String.utf8EncodeChar c, rest)

/-- The inside of a quoted text, and the text behind its closing quote. Characters stand for what
`plain` says, and backslash sequences for what `escape` says. The number bounds how many characters
are read. -/
def quoted? {α : Type} (plain : Char → List α)
    (escape : List Char → Option (List α × List Char)) :
    Nat → List Char → Option (List α × List Char)
  | 0, _ => none
  | _, [] => none
  | _ + 1, '"' :: cs => some ([], cs)
  | fuel + 1, '\\' :: cs => do
      let (first, rest) ← escape cs
      let (inner, rest) ← quoted? plain escape fuel rest
      some (first ++ inner, rest)
  | fuel + 1, c :: cs => do
      let (inner, rest) ← quoted? plain escape fuel cs
      some (plain c ++ inner, rest)

/-- The inside of a raw text, up to a quote that the given marks follow. -/
def rawUntil? (marks : List Char) : List Char → Option (List Char × List Char)
  | [] => none
  | c :: cs =>
      match if c = '"' then after? marks cs else none with
      | some rest => some ([], rest)
      | none => (rawUntil? marks cs).map fun (inner, rest) => (c :: inner, rest)

/-- A raw text behind its mark. -/
def raw? (cs : List Char) : Option (List Char × List Char) :=
  match cs.dropWhile (· = '#') with
  | '"' :: inner => rawUntil? (cs.takeWhile (· = '#')) inner
  | _ => none

/-- A text in quotes, or a raw one. -/
def text? : List Char → Option (List Char × List Char)
  | '"' :: cs =>
      quoted? (fun c => [c]) (fun cs => (escape? 4 cs).map fun (c, rest) => ([c], rest))
        (cs.length + 1) cs
  | 'r' :: cs => raw? cs
  | _ => none

/-- Bytes in quotes, or raw ones. -/
def bytes? : List Char → Option (List UInt8 × List Char)
  | 'b' :: '"' :: cs => quoted? String.utf8EncodeChar bytesEscape? (cs.length + 1) cs
  | 'b' :: 'r' :: cs =>
      (raw? cs).map fun (inner, rest) => (inner.flatMap String.utf8EncodeChar, rest)
  | _ => none

def char? : List Char → Option (Char × List Char)
  | '\'' :: '\\' :: cs => do
      let (c, rest) ← escape? 1 cs
      let rest ← after? ['\''] rest
      some (c, rest)
  | '\'' :: c :: '\'' :: rest => some (c, rest)
  | _ => none

/-- A byte that a character in quotes stands for. -/
def byteChar? : List Char → Option (UInt8 × List Char)
  | 'b' :: '\'' :: '\\' :: cs => do
      let (spelled, rest) ← bytesEscape? cs
      let rest ← after? ['\''] rest
      match spelled with
      | [b] => if cs.head? = some 'u' then none else some (b, rest)
      | _ => none
  | 'b' :: '\'' :: c :: '\'' :: rest =>
      if c.toNat < 128 then some (c.toNat.toUInt8, rest) else none
  | _ => none

def isNumberChar (c : Char) : Bool :=
  c.isAlphanum || c = '_' || c = '.' || c = '+' || c = '-'

def startsNumber (c : Char) : Bool :=
  c.isDigit || c = '+' || c = '-' || c = '.'

/-- A number in digits, or a byte, which is a whole number of its width. -/
def numeric? : List Char → Option (Ron × List Char)
  | [] => none
  | c :: cs =>
      if startsNumber c then
        let literal := (c :: cs).takeWhile isNumberChar
        (number? literal).map fun _ => (.number literal, (c :: cs).dropWhile isNumberChar)
      else
        (byteChar? (c :: cs)).map fun (b, rest) =>
          (.number (Nat.toDigits 10 b.toNat ++ "u8".toList), rest)

/-- A value that brackets take no part in. -/
def scalar? (cs : List Char) : Option (Ron × List Char) :=
  ((text? cs).map fun (inner, rest) => (Ron.text inner, rest)).orElse fun _ =>
    ((bytes? cs).map fun (inner, rest) => (Ron.bytes inner, rest)).orElse fun _ =>
      ((char? cs).map fun (c, rest) => (Ron.char c, rest)).orElse fun _ => numeric? cs

/-- A name, a colon and a value. -/
def field? (value : List Char → Option (Ron × List Char)) (cs : List Char) :
    Option ((List Char × Ron) × List Char) := do
  let (name, rest) ← name? cs
  match skip rest with
  | ':' :: rest => do
      let (v, rest) ← value (skip rest)
      some ((name, v), rest)
  | _ => none

/-- A key, a colon and a value. -/
def keyed? (value : List Char → Option (Ron × List Char)) (cs : List Char) :
    Option ((Ron × Ron) × List Char) := do
  let (key, rest) ← value cs
  match skip rest with
  | ':' :: rest => do
      let (v, rest) ← value (skip rest)
      some ((key, v), rest)
  | _ => none

/-- Whether a name and a colon come next. -/
def startsField (cs : List Char) : Bool :=
  match name? (skip cs) with
  | some (_, rest) => (skip rest).head? = some ':'
  | none => false

/-- What stands in parentheses behind a name: fields or items. -/
def parenthesized? (value : List Char → Option (Ron × List Char)) (fuel : Nat)
    (name cs : List Char) : Option (Ron × List Char) :=
  if startsField cs then (entries? skip true (field? value) ')' fuel cs).map fun (fields, rest) =>
    (.record name fields, rest)
  else (entries? skip true value ')' fuel cs).map fun (items, rest) => (.tuple name items, rest)

/-- A value in parentheses that is marked as there. -/
def present? (value : List Char → Option (Ron × List Char)) (fuel : Nat) (cs : List Char) :
    Option (Ron × List Char) :=
  match skip cs with
  | '(' :: inner =>
      match entries? skip true value ')' fuel inner with
      | some ([v], rest) => some (.present v, rest)
      | _ => none
  | _ => none

/-- A name, alone or before parentheses, given the text behind it. -/
def named? (value : List Char → Option (Ron × List Char)) (fuel : Nat) (name rest : List Char) :
    Option (Ron × List Char) :=
  match skip rest with
  | '(' :: inner => parenthesized? value fuel name inner
  | _ => some (.word name, rest)

/-- What a name starts. Some names mean something of their own, unless a mark lets them be any
name. -/
def worded? (value : List Char → Option (Ron × List Char)) (fuel : Nat) (cs : List Char) :
    Option (Ron × List Char) := do
  let (name, rest) ← name? cs
  if isFree cs then named? value fuel name rest
  else match String.ofList name with
    | "true" => some (.bool true, rest)
    | "false" => some (.bool false, rest)
    | "None" => some (.absent, rest)
    | "Some" => present? value fuel rest
    | _ =>
        if (special? name).isSome then some (.number name, rest)
        else named? value fuel name rest

/-- A value at the front of a text. The first argument bounds how deep values nest and how many
entries a bracket has; the length of the text is enough. -/
def value? : Nat → List Char → Option (Ron × List Char)
  | 0, _ => none
  | _, [] => none
  | fuel + 1, '(' :: cs =>
      match cs with
      | ')' :: rest => some (.unit, rest)
      | _ => parenthesized? (value? fuel) (fuel + 1) [] cs
  | fuel + 1, '[' :: cs =>
      (entries? skip true (value? fuel) ']' (fuel + 1) cs).map fun (items, rest) =>
        (.list items, rest)
  | fuel + 1, '\x7b' :: cs =>
      (entries? skip true (keyed? (value? fuel)) '\x7d' (fuel + 1) cs).map
        fun (entries, rest) => (.map entries, rest)
  | fuel + 1, cs =>
      match scalar? cs with
      | some found => some found
      | none => worded? (value? fuel) (fuel + 1) cs

/-- What a text enables for itself. -/
structure Extensions where
  /-- A value that is there need not be marked as there. -/
  implicitSome : Bool
  /-- A variant that holds a structure takes the structure's fields as its own. -/
  bareVariants : Bool
  /-- Structures must carry their names. -/
  explicitNames : Bool

namespace Extensions

def initial : Extensions :=
  ⟨false, false, false⟩

/-- Enables what a name stands for. -/
def enable? (e : Extensions) (name : List Char) : Option Extensions :=
  match String.ofList name with
  | "implicit_some" => some { e with implicitSome := true }
  | "unwrap_variant_newtypes" => some { e with bareVariants := true }
  | "explicit_struct_names" => some { e with explicitNames := true }
  | "unwrap_newtypes" => some e
  | _ => none

end Extensions

/-- The text behind some parts, with blanks and comments behind each. -/
def afterParts? : List String → List Char → Option (List Char)
  | [], cs => some cs
  | part :: parts, cs => (after? part.toList cs).bind fun rest => afterParts? parts (skip rest)

/-- An attribute: the names of what it enables, of which there is at least one. -/
def attribute? (e : Extensions) (cs : List Char) : Option (Extensions × List Char) := do
  let rest ← afterParts? ["#", "!", "[", "enable", "("] cs
  let (names, rest) ← entries? skip true name? ')' (rest.length + 1) rest
  let rest ← afterParts? ["]"] (skip rest)
  if names.isEmpty then none
  else do
    let e ← names.foldlM Extensions.enable? e
    some (e, rest)

/-- What the attributes at the front of a text enable, and the text behind them. The number bounds
how many there are. -/
def attributes? (e : Extensions) : Nat → List Char → Option (Extensions × List Char)
  | 0, _ => none
  | fuel + 1, cs =>
      if cs.head? = some '#' then do
        let (e, rest) ← attribute? e cs
        attributes? e fuel rest
      else some (e, cs)

/-- The value that a whole text spells, and what the text enables. -/
def read? (source : List Char) : Option (Extensions × Ron) := do
  let (e, rest) ← attributes? .initial (source.length + 1) (skip source)
  let (v, rest) ← value? (source.length + 1) rest
  if (skip rest).isEmpty then some (e, v) else none

end Dialogue.Ron
