import Dialogue.Expr.Parse
import Dialogue.Store.Functions
import Dialogue.Value.Number

set_option autoImplicit false

namespace Dialogue.Store

/-- How deep smart variables may refer to each other. -/
def smartDepth : Nat :=
  32

/-- The expression that a text spells, outer white space aside. -/
def parseExpr (text : String) : Except EvalError Expr :=
  let text := Text.trimmed text
  match Expr.parse? text with
  | some e => .ok e
  | none => .error (.malformed text)

/-- The number that an operand counts as. -/
def operand (op : String) (v : Value) : Except EvalError Float :=
  match v.asNumber with
  | some x => .ok x
  | none => .error (.notANumber op v.toText)

def applyUnary (op : UnaryOp) (v : Value) : Except EvalError Value :=
  match op with
  | .not => .ok (.bool (!v.truthy))
  | .neg => (operand op.symbol v).map fun x => .number (-x)
  | .plus => (operand op.symbol v).map fun x => .number x

/-- A number from two operands, of which the left one is looked at first. -/
def arithmetic (op : BinaryOp) (f : Float → Float → Float) (left right : Value) :
    Except EvalError Value := do
  let x ← operand op.symbol left
  let y ← operand op.symbol right
  return .number (f x y)

/-- A binary operator on two values; `and` and `or` have let the left one pass. -/
def applyBinary (op : BinaryOp) (left right : Value) : Except EvalError Value :=
  match op with
  | .and | .or => .ok (.bool right.truthy)
  | .xor => .ok (.bool (left.truthy != right.truthy))
  | .eq => .ok (.bool (left.looseEq right))
  | .ne => .ok (.bool (!left.looseEq right))
  | .lt => .ok (.bool (left.toNumber < right.toNumber))
  | .le => .ok (.bool (left.toNumber ≤ right.toNumber))
  | .gt => .ok (.bool (left.toNumber > right.toNumber))
  | .ge => .ok (.bool (left.toNumber ≥ right.toNumber))
  | .add => arithmetic op (· + ·) left right
  | .sub => arithmetic op (· - ·) left right
  | .mul => arithmetic op (· * ·) left right
  | .div => arithmetic op (· / ·) left right
  | .rem => arithmetic op Number.remainder left right

/-- The result that the left operand alone decides, if it does. -/
def shortCircuit? (op : BinaryOp) (left : Value) : Option Value :=
  match op with
  | .and => if left.truthy then none else some (.bool false)
  | .or => if left.truthy then some (.bool true) else none
  | _ => none

mutual

/-- The value of an expression whose variables `read` gives, where functions may ask `access`. The
two operands of an operator draw apart from each other, and so do a function and its arguments. -/
def eval (s : Store) (access : Draws → Access) (read : Draws → String → Except EvalError Value)
    (draws : Draws) : Expr → Except EvalError Value
  | .literal v => .ok v
  | .var name => read draws name
  | .enumCase enum case => s.enumCase enum case
  | .call name args =>
      match s.functions.get? name with
      | none => .error (.unknownFunction name)
      | some f => do
          let values ← evalAll s access read (draws.part 0) args
          f (access (draws.part 1)) values
  | .unary op e => do
      let v ← eval s access read draws e
      applyUnary op v
  | .binary op left right => do
      let l ← eval s access read (draws.part 0) left
      match shortCircuit? op l with
      | some v => return v
      | none => do
          let r ← eval s access read (draws.part 1) right
          applyBinary op l r

/-- The values of expressions, from left to right. -/
def evalAll (s : Store) (access : Draws → Access) (read : Draws → String → Except EvalError Value)
    (draws : Draws) : List Expr → Except EvalError (List Value)
  | [] => .ok []
  | e :: rest => do
      let v ← eval s access read (draws.part 0) e
      let values ← evalAll s access read (draws.part 1) rest
      return v :: values

end

/-- The value of a variable, where smart variables may nest `room` levels deep. The text of a smart
variable is evaluated with one level less, so reading ends whatever smart variables refer to. -/
def readWithin (s : Store) (access : Draws → Access) (room : Nat) (draws : Draws)
    (name : String) : Except EvalError Value :=
  match s.smart.get? name with
  | some text =>
      match room with
      | 0 => .error (.recursionLimit name)
      | room + 1 => do
          let e ← parseExpr text
          eval s access (readWithin s access room) draws e
  | none =>
      match s.vars.get? name with
      | some v => .ok v
      | none => .error (.unknownVariable name)

section Access

variable (s : Store) (access : Draws → Access) (draws : Draws)

def evaluateText (text : String) : Except EvalError Value := do
  let e ← parseExpr text
  s.eval access (s.readWithin access smartDepth) draws e

/-- The values of all variables; smart variables without a value are left out. -/
def survey : Table Value :=
  s.smart.names.zipIdx.foldl (fun all (name, index) =>
    match s.readWithin access smartDepth (draws.part index) name with
    | .ok v => all.insert name v
    | .error _ => all) s.vars

/-- What a function may ask where nothing is answered any more. -/
def silent : Access where
  toView := s.view
  draw n := draws [0, n]
  read _ name := .error (.callLimit name)
  evaluate _ text := .error (.callLimit text)
  snapshot _ := s.vars

/-- What a function may ask where `access` answers the functions that are called for it. Smart
variables start at the full depth again. -/
def served : Access where
  toView := s.view
  draw n := draws [0, n]
  read n name := s.readWithin access smartDepth ((draws.part 1).part n) (bareName name)
  evaluate n text := s.evaluateText access ((draws.part 2).part n) text
  snapshot n := s.survey access ((draws.part 3).part n)

end Access

/-- What functions may ask, where such calls may nest `calls` deep. -/
def accessWithin (s : Store) : Nat → Draws → Access
  | 0 => s.silent
  | calls + 1 => s.served (s.accessWithin calls)

def access (s : Store) : Draws → Access :=
  s.accessWithin s.calls

/-- The current value of a variable. -/
def valueOf (s : Store) (name : String) : Except EvalError Value :=
  s.readWithin s.access smartDepth s.draws (bareName name)

/-- The value of the expression that a text spells. -/
def evaluate (s : Store) (text : String) : Except EvalError Value :=
  s.evaluateText s.access s.draws text

/-- Whether a condition holds; one that has no value does not. -/
def holds (s : Store) (condition : String) : Bool :=
  match s.evaluate condition with
  | .ok v => v.truthy
  | .error _ => false

/-- The values of all variables; smart variables without a value are left out. -/
def snapshot (s : Store) : Table Value :=
  s.survey s.access s.draws

end Dialogue.Store
