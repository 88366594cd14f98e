import Dialogue.Expr.Parse

set_option autoImplicit false

namespace Dialogue

namespace BinaryOp

/-- How tightly an operator binds. -/
def level : BinaryOp → Nat
  | or => 0
  | xor => 1
  | and => 2
  | eq | ne => 3
  | lt | le | gt | ge => 4
  | add | sub => 5
  | mul | div | rem => 6

def symbols : BinaryOp → List String
  | or => ["||"]
  | xor => ["^"]
  | and => ["&&"]
  | eq => ["=", "==", "==="]
  | ne => ["!=", "!=="]
  | lt => ["<"]
  | le => ["<="]
  | gt => [">"]
  | ge => [">="]
  | add => ["+"]
  | sub => ["-"]
  | mul => ["*"]
  | div => ["/"]
  | rem => ["%"]

def words : BinaryOp → List String
  | or => ["or"]
  | xor => ["xor"]
  | and => ["and"]
  | eq => ["eq", "is"]
  | ne => ["neq"]
  | lt => ["lt"]
  | le => ["lte"]
  | gt => ["gt"]
  | ge => ["gte"]
  | add | sub | mul | div | rem => []

end BinaryOp

namespace UnaryOp

def symbols : UnaryOp → List String
  | not => ["!"]
  | neg => ["-"]
  | plus => ["+"]

def words : UnaryOp → List String
  | not => ["not"]
  | neg | plus => []

end UnaryOp

namespace Expr

open Dialogue.Text

/-- The level of prefix operators, above those of the others. -/
def prefixLevel : Nat :=
  7

def level : Expr → Nat
  | binary op _ _ => op.level
  | unary _ _ => prefixLevel
  | _ => prefixLevel + 1

/-- A spelling of an operator: one of its symbols, or one of its words in any letter case. -/
inductive Token (symbols words : List String) : (isWord : Bool) → List Char → Prop
  | symbol {text : String} (listed : text ∈ symbols) : Token symbols words false text.toList
  | word {text : String} {cs : List Char} (listed : text ∈ words)
      (spelled : cs.map Char.toLower = text.toList) : Token symbols words true cs

def spellsIdentifier : List Char → Bool
  | [] => false
  | c :: cs => isNameStart c && cs.all isNameChar

def IsIdentifier (name : String) : Prop :=
  spellsIdentifier name.toList = true

instance (name : String) : Decidable (IsIdentifier name) :=
  inferInstanceAs (Decidable (_ = true))

/-- Whether a name is a word in some letter case. -/
def IsWord (word name : String) : Prop :=
  name.toList.map Char.toLower = word.toList

instance (word name : String) : Decidable (IsWord word name) :=
  inferInstanceAs (Decidable (_ = _))

def Digits (cs : List Char) : Prop :=
  cs ≠ [] ∧ ∀ c ∈ cs, c.isDigit = true

/-- Digits with an optional fraction, or a fraction alone. -/
inductive Numeral : List Char → Prop
  | whole {digits : List Char} (valid : Digits digits) : Numeral digits
  | fraction {digits : List Char} (valid : Digits digits) : Numeral ('.' :: digits)
  | both {digits fraction : List Char} (valid : Digits digits) (behind : Digits fraction) :
      Numeral (digits ++ '.' :: fraction)

/-- A text as it stands between double quotation marks. -/
def escapeText : List Char → List Char
  | [] => []
  | c :: cs => if c = '\\' || c = '"' then '\\' :: c :: escapeText cs else c :: escapeText cs

/-- The expressions that can be written: their names are identifiers that no other reading takes
first, and their numbers are values of numerals. A case is written as a reference; no literal
spells it. -/
inductive Admissible : Expr → Prop
  | bool (value : Bool) : Admissible (.literal (.bool value))
  | number {cs : List Char} {value : Float} (numeral : Numeral cs)
      (read : Decimal.read? cs = some value) : Admissible (.literal (.number value))
  | text (value : String) : Admissible (.literal (.text value))
  | var {name : String} (named : IsIdentifier name) : Admissible (.var name)
  | shorthand {case : String} (named : IsIdentifier case) : Admissible (.enumCase "" case)
  | enumCase {enum case : String} (outer : IsIdentifier enum) (named : IsIdentifier case)
      (free : ¬IsWord "not" enum ∧ ¬IsWord "true" enum ∧ ¬IsWord "false" enum) :
      Admissible (.enumCase enum case)
  | call {function : String} {args : List Expr} (named : IsIdentifier function)
      (free : ¬IsWord "not" function) (inside : ∀ e ∈ args, Admissible e) :
      Admissible (.call function args)
  | unary {op : UnaryOp} {operand : Expr} (inside : Admissible operand) :
      Admissible (.unary op operand)
  | binary {op : BinaryOp} {left right : Expr} (first : Admissible left)
      (second : Admissible right) : Admissible (.binary op left right)

/-- Characters that may stand between two parts. -/
def Gap (cs : List Char) : Prop :=
  ∀ c ∈ cs, isGap c = true

/-- A gap beside an operator; beside a word there must be one. -/
def Spaced (isWord : Bool) (cs : List Char) : Prop :=
  Gap cs ∧ (isWord = true → cs ≠ [])

inductive Leaf : Expr → List Char → Prop
  | bool {value : Bool} {cs : List Char}
      (spelled : cs.map Char.toLower = (if value then "true" else "false").toList) :
      Leaf (.literal (.bool value)) cs
  | number {cs : List Char} {value : Float} (numeral : Numeral cs)
      (read : Decimal.read? cs = some value) : Leaf (.literal (.number value)) cs
  | text (value : String) :
      Leaf (.literal (.text value)) ('"' :: (escapeText value.toList ++ ['"']))
  | var (name : String) : Leaf (.var name) ('$' :: name.toList)
  | enumCase (enum case : String) : Leaf (.enumCase enum case) (enum.toList ++ '.' :: case.toList)

/-- An argument of a call with the gaps around it. -/
structure Arg where
  expr : Expr
  before : List Char
  text : List Char
  after : List Char

def Arg.chars (a : Arg) : List Char :=
  a.before ++ (a.text ++ a.after)

def moreArgsText : List Arg → List Char
  | [] => []
  | a :: rest => ',' :: (a.chars ++ moreArgsText rest)

def argsText : List Arg → List Char
  | [] => []
  | a :: rest => a.chars ++ moreArgsText rest

/-- The ways to write an expression where operators of the given level and tighter ones may
stand. -/
inductive Written : Nat → Expr → List Char → Prop
  | leaf {k : Nat} {e : Expr} {cs : List Char} (leaf : Leaf e cs) : Written k e cs
  | call {k : Nat} {function : String} {args : List Arg} {gap inside : List Char}
      (written : ∀ a ∈ args, Written 0 a.expr a.text)
      (gaps : ∀ a ∈ args, Gap a.before ∧ Gap a.after) (before : Gap gap) (after : Gap inside) :
      Written k (.call function (args.map Arg.expr))
        (function.toList ++ (gap ++ '(' :: (argsText args ++ (inside ++ [')']))))
  | unary {k : Nat} {op : UnaryOp} {operand : Expr} {isWord : Bool} {token gap cs : List Char}
      (fits : k ≤ prefixLevel) (spelled : Token op.symbols op.words isWord token)
      (after : Spaced isWord gap) (written : Written prefixLevel operand cs) :
      Written k (.unary op operand) (token ++ (gap ++ cs))
  | binary {k : Nat} {op : BinaryOp} {left right : Expr} {isWord : Bool}
      {first before token after second : List Char} (fits : k ≤ op.level)
      (spelled : Token op.symbols op.words isWord token) (front : Spaced isWord before)
      (back : Spaced isWord after) (writtenLeft : Written op.level left first)
      (writtenRight : Written (op.level + 1) right second) :
      Written k (.binary op left right) (first ++ (before ++ (token ++ (after ++ second))))
  | group {k : Nat} {e : Expr} {before cs after : List Char} (loose : e.level < k)
      (front : Gap before) (back : Gap after) (written : Written 0 e cs) :
      Written k e ('(' :: (before ++ (cs ++ (after ++ [')']))))

/-- The ways to write an expression as a whole text. -/
def Spells (e : Expr) (source : String) : Prop :=
  ∃ before cs after, Gap before ∧ Gap after ∧ Written 0 e cs ∧
    source.toList = before ++ (cs ++ after)

end Expr

end Dialogue
