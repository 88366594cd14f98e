import Dialogue.Expr.Basic
import Dialogue.Text.Name

set_option autoImplicit false

namespace Dialogue.Expr

open Dialogue.Text

/-- A reader of the front of a text. -/
abbrev Reader (α : Type) := List Char → Option (α × List Char)

/-- The characters that may stand between the parts of an expression. -/
def isGap (c : Char) : Bool :=
  c = ' ' || c = '\t' || c = '\r' || c = '\n'

def skip (cs : List Char) : List Char :=
  cs.dropWhile isGap

/-- A spelling of an operator: a symbol, or a word that no further name character follows. -/
inductive Spelling where
  | symbol (text : String)
  | word (text : String)

/-- The text behind a word in any letter case. -/
def afterAnyCase? : List Char → List Char → Option (List Char)
  | [], cs => some cs
  | _ :: _, [] => none
  | w :: ws, c :: cs => if w = c.toLower then afterAnyCase? ws cs else none

/-- The text behind a whole word in any letter case. -/
def afterWord? (word : List Char) (cs : List Char) : Option (List Char) :=
  match afterAnyCase? word cs with
  | some (c :: rest) => if isNameChar c then none else some (c :: rest)
  | found => found

namespace Spelling

def after? : Spelling → List Char → Option (List Char)
  | symbol text, cs => Text.after? text.toList cs
  | word text, cs => afterWord? text.toList cs

end Spelling

/-- The first operator of a table that the text starts with. -/
def operator? {α : Type} : List (Spelling × α) → Reader α
  | [], _ => none
  | (spelling, op) :: rest, cs =>
      match spelling.after? cs with
      | some after => some (op, after)
      | none => operator? rest cs

/-- The binary operators, loosest level first, each level in the order in which it is tried. -/
def levels : List (List (Spelling × BinaryOp)) :=
  [[(.symbol "||", .or), (.word "or", .or)],
   [(.symbol "^", .xor), (.word "xor", .xor)],
   [(.symbol "&&", .and), (.word "and", .and)],
   [(.symbol "===", .eq), (.symbol "!==", .ne), (.symbol "==", .eq), (.symbol "!=", .ne),
    (.word "neq", .ne), (.word "eq", .eq), (.word "is", .eq), (.symbol "=", .eq)],
   [(.symbol "<=", .le), (.symbol ">=", .ge), (.symbol "<", .lt), (.symbol ">", .gt),
    (.word "gte", .ge), (.word "lte", .le), (.word "gt", .gt), (.word "lt", .lt)],
   [(.symbol "+", .add), (.symbol "-", .sub)],
   [(.symbol "*", .mul), (.symbol "/", .div), (.symbol "%", .rem)]]

def prefixes : List (Spelling × UnaryOp) :=
  [(.symbol "!", .not), (.symbol "-", .neg), (.symbol "+", .plus), (.word "not", .not)]

def name? : Reader String
  | [] => none
  | c :: cs =>
      if isNameStart c then
        some (String.ofList (c :: cs.takeWhile isNameChar), cs.dropWhile isNameChar)
      else none

/-- Digits with an optional fraction, or a fraction alone. -/
def number? (cs : List Char) : Option (Expr × List Char) :=
  let whole := cs.takeWhile Char.isDigit
  let rest := cs.dropWhile Char.isDigit
  let (digits, rest) := match rest with
    | '.' :: after =>
        let fraction := after.takeWhile Char.isDigit
        if fraction.isEmpty then (whole, rest)
        else (whole ++ '.' :: fraction, after.dropWhile Char.isDigit)
    | _ => (whole, rest)
  if digits.isEmpty then none
  else (Decimal.read? digits).map fun x => (.literal (.number x), rest)

/-- The text inside a quotation, and the text behind its closing quote. A backslash keeps the next
character from closing it, and stands for itself before the end of the text. -/
def quoted? (quote : Char) : List Char → Option (List Char × List Char)
  | [] => none
  | ['\\'] => none
  | '\\' :: c :: cs =>
      (quoted? quote cs).map fun (inner, rest) =>
        ((if c = 'n' then '\n' else if c = 't' then '\t' else c) :: inner, rest)
  | c :: cs =>
      if c = quote then some ([], cs)
      else (quoted? quote cs).map fun (inner, rest) => (c :: inner, rest)

/-- The text behind an opening quote. -/
def textIn? (quote : Char) (cs : List Char) : Option (Expr × List Char) :=
  (quoted? quote cs).map fun (inner, rest) => (.literal (.text (String.ofList inner)), rest)

def string? : Reader Expr
  | '"' :: cs => textIn? '"' cs
  | '\'' :: cs => textIn? '\'' cs
  | _ => none

def boolean? (cs : List Char) : Option (Expr × List Char) :=
  match afterWord? "true".toList cs with
  | some rest => some (.literal (.bool true), rest)
  | none =>
      match afterWord? "false".toList cs with
      | some rest => some (.literal (.bool false), rest)
      | none => none

/-- A variable, or a case with or without its enumeration. -/
def reference? : Reader Expr
  | '.' :: cs => (name? cs).map fun (case, rest) => (.enumCase "" case, rest)
  | '$' :: cs => (name? cs).map fun (name, rest) => (.var name, rest)
  | cs =>
      match name? cs with
      | none => none
      | some (name, rest) =>
          match rest with
          | '.' :: after =>
              match name? after with
              | some (case, rest) => some (.enumCase name case, rest)
              | none => some (.var name, rest)
          | _ => some (.var name, rest)

/-- A part of an expression that stands for itself. -/
def atom? (cs : List Char) : Option (Expr × List Char) :=
  (number? cs).orElse fun _ =>
  (string? cs).orElse fun _ =>
  (boolean? cs).orElse fun _ =>
  reference? cs

/-- Further arguments of a call, each after a comma. -/
def moreArgs (operand : Reader Expr) : Nat → List Char → List Expr × List Char
  | 0, cs => ([], cs)
  | fuel + 1, cs =>
      match skip cs with
      | ',' :: after =>
          match operand (skip after) with
          | some (arg, rest) =>
              let (args, rest) := moreArgs operand fuel rest
              (arg :: args, rest)
          | none => ([], cs)
      | _ => ([], cs)

/-- The arguments of a call, which may be none. -/
def args (operand : Reader Expr) (fuel : Nat) (cs : List Char) : List Expr × List Char :=
  match operand (skip cs) with
  | some (arg, rest) =>
      let (args, rest) := moreArgs operand fuel rest
      (arg :: args, rest)
  | none => ([], cs)

def call? (operand : Reader Expr) (fuel : Nat) (cs : List Char) : Option (Expr × List Char) :=
  match name? cs with
  | none => none
  | some (name, rest) =>
      match skip rest with
      | '(' :: inner =>
          let (args, rest) := args operand fuel inner
          match skip rest with
          | ')' :: after => some (.call name args, after)
          | _ => none
      | _ => none

def group? (operand : Reader Expr) : Reader Expr
  | '(' :: inner =>
      match operand (skip inner) with
      | some (e, rest) =>
          match skip rest with
          | ')' :: after => some (e, after)
          | _ => none
      | none => none
  | _ => none

def primary? (operand : Reader Expr) (fuel : Nat) (cs : List Char) : Option (Expr × List Char) :=
  (call? operand fuel cs).orElse fun _ =>
  (group? operand cs).orElse fun _ =>
  atom? cs

/-- A primary behind any number of prefix operators. -/
def unary? (operand : Reader Expr) : Nat → List Char → Option (Expr × List Char)
  | 0, _ => none
  | fuel + 1, cs =>
      match operator? prefixes cs with
      | some (op, rest) =>
          (unary? operand fuel (skip rest)).map fun (e, rest) => (.unary op e, rest)
      | none => primary? operand fuel cs

/-- Operators of one level with their right operands, after `left`. -/
def chain (table : List (Spelling × BinaryOp)) (operand : Reader Expr) :
    Nat → Expr → List Char → Expr × List Char
  | 0, left, cs => (left, cs)
  | fuel + 1, left, cs =>
      match operator? table (skip cs) with
      | some (op, rest) =>
          match operand (skip rest) with
          | some (right, rest) => chain table operand fuel (.binary op left right) rest
          | none => (left, cs)
      | none => (left, cs)

/-- Expressions of the given levels over a reader of the tightest operands. -/
def climb (fuel : Nat) (tightest : Reader Expr) : List (List (Spelling × BinaryOp)) → Reader Expr
  | [], cs => tightest cs
  | table :: tighter, cs =>
      match climb fuel tightest tighter cs with
      | some (left, rest) => some (chain table (climb fuel tightest tighter) fuel left rest)
      | none => none

/-- An expression at the front of a text. `fuel` bounds how deep expressions nest; the length of
the text is enough, since every level of nesting takes a character. -/
def expression? : Nat → Reader Expr
  | 0, _ => none
  | fuel + 1, cs => climb (fuel + 1) (unary? (expression? fuel) (fuel + 1)) levels cs

/-- The expression that a whole text spells. -/
def parse? (source : String) : Option Expr :=
  let cs := source.toList
  match expression? (cs.length + 1) (skip cs) with
  | some (e, rest) => if (skip rest).isEmpty then some e else none
  | none => none

end Dialogue.Expr
