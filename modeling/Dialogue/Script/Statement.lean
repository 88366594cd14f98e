import Dialogue.Table

set_option autoImplicit false

namespace Dialogue.Script

structure Enumeration where
  name : String
  cases : List String
  deriving DecidableEq, Repr

structure Line where
  speaker : Option String
  text : String
  tags : List String
  css : Option String
  deriving DecidableEq, Repr

/-- An option as offered; the statements it leads to stand beside it. -/
structure Choice where
  text : String
  tags : List String
  css : Option String
  condition : Option String
  deriving DecidableEq, Repr

inductive Statement where
  | line (line : Line)
  | command (content : String)
  | jump (target : String)
  | detour (target : String)
  | options (choices : List (Choice × List Statement))
  /-- A branch without a condition is the `else` branch. -/
  | conditional (branches : List (Option String × List Statement))
  | once (body : List Statement)
  | enumeration (enum : Enumeration)

/-- A list of statements that run in order. -/
abbrev Body := List Statement

structure Node where
  title : String
  /-- Every header as written, the known ones included. -/
  headers : Table String
  tags : List String
  conditions : List String
  css : Option String
  body : Body
  /-- The line of the node's first token. -/
  line : Nat

structure Document where
  /-- In the order in which the definitions end. -/
  enums : List Enumeration
  nodes : List Node

end Dialogue.Script
