import Dialogue.Value.Basic

set_option autoImplicit false

namespace Dialogue

inductive UnaryOp where
  | not
  | neg
  | plus
  deriving DecidableEq, Repr

inductive BinaryOp where
  | or
  | xor
  | and
  | eq
  | ne
  | lt
  | le
  | gt
  | ge
  | add
  | sub
  | mul
  | div
  | rem
  deriving DecidableEq, Repr

inductive Expr where
  | literal (value : Value)
  /-- A variable's name, without its mark. -/
  | var (name : String)
  /-- A case; an empty enumeration name stands for any enumeration. -/
  | enumCase (enum case : String)
  | call (function : String) (args : List Expr)
  | unary (op : UnaryOp) (operand : Expr)
  | binary (op : BinaryOp) (left right : Expr)

namespace UnaryOp

def symbol : UnaryOp → String
  | not => "!"
  | neg => "-"
  | plus => "+"

end UnaryOp

namespace BinaryOp

def symbol : BinaryOp → String
  | or => "||"
  | xor => "^"
  | and => "&&"
  | eq => "=="
  | ne => "!="
  | lt => "<"
  | le => "<="
  | gt => ">"
  | ge => ">="
  | add => "+"
  | sub => "-"
  | mul => "*"
  | div => "/"
  | rem => "%"

end BinaryOp

end Dialogue
